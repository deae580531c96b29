import AutoReset.Proofs.Event.Tenants
import AutoReset.Script.Run
/-!
# What the parts of a script do

A part of a script changes the world, unless it makes no sense. For each kind of part that
the steps are made of, this file says what follows from a run that made sense: looking
something up changes nothing (`AutoReset.Script.Act.of_lookup` and its kin), and what a step
asks of the system is done there, be it that it ends in a fault
(`AutoReset.Script.of_answering`). Whichever way an event is released, it is one release.
-/

namespace AutoReset

namespace Script

namespace Act

variable {α β : Type} {w w' : World}

theorem bind_eq_ok {x : Act α} {f : α → Act β} {p : β × World} :
    (x >>= f) w = .ok p ↔ ∃ a w₁, x w = .ok (a, w₁) ∧ f a w₁ = .ok p := by
  show (x w >>= fun r => f r.1 r.2) = .ok p ↔ _
  cases x w with
  | error m => exact ⟨nofun, fun ⟨_, _, h, _⟩ => nomatch h⟩
  | ok r =>
    refine ⟨fun h => ⟨r.1, r.2, rfl, h⟩, ?_⟩
    rintro ⟨a, w₁, ha, h⟩
    cases ha
    exact h

theorem perform_apply (x : Attempt System α) (w : World) :
    perform x w = .ok (x.outcome w.system, { w with system := x.after w.system }) := by
  simp only [perform, Attempt.outcome, Attempt.after]
  cases x w.system <;> rfl

theorem of_lookup {v : String} {x : Variable} (h : lookup v w = .ok (x, w')) :
    w = w' ∧ w.vars.get? v = some x := by
  obtain ⟨_, _, hget, h⟩ := bind_eq_ok.mp h
  cases hget
  cases hx : w.vars.get? v with
  | none =>
    rw [hx] at h
    cases h
  | some y =>
    rw [hx] at h
    cases h
    exact ⟨rfl, rfl⟩

theorem of_owner {v : String} {o : Owner} (h : owner v w = .ok (o, w')) :
    w = w' ∧ w.vars.get? v = some (.owner o) := by
  obtain ⟨x, w₁, hx, h⟩ := bind_eq_ok.mp h
  obtain ⟨rfl, hget⟩ := of_lookup hx
  cases x with
  | owner o =>
    cases h
    exact ⟨rfl, hget⟩
  | handle _ => cases h

theorem of_handle {v : String} {k : Handle} (h : handle v w = .ok (k, w')) :
    w = w' ∧ w.vars.get? v = some (.handle k) := by
  obtain ⟨x, w₁, hx, h⟩ := bind_eq_ok.mp h
  obtain ⟨rfl, hget⟩ := of_lookup hx
  cases x with
  | owner _ => cases h
  | handle k =>
    cases h
    exact ⟨rfl, hget⟩

end Act

/-- The origin that a source means. -/
def World.origin? (w : World) : Source → Option Origin
  | .system => some .system
  | .named name => (w.allocators.get? name).map .ledger

theorem Act.of_origin {w w' : World} {memory : Source} {o : Origin}
    (h : origin memory w = .ok (o, w')) : w = w' ∧ w.origin? memory = some o := by
  cases memory with
  | system =>
    cases h
    exact ⟨rfl, rfl⟩
  | named name =>
    obtain ⟨_, _, hget, h⟩ := bind_eq_ok.mp h
    cases hget
    cases hnumber : w.allocators.get? name with
    | none =>
      rw [hnumber] at h
      cases h
    | some number =>
      rw [hnumber] at h
      cases h
      exact ⟨rfl, by rw [World.origin?, hnumber, Option.map_some]⟩

/-- What came of something that a step answers with. -/
theorem of_answering {α : Type} {x : Attempt System α} {k : α → Act Answer} {w w' : World}
    {answer : Answer} (h : answering x k w = .ok (answer, w')) :
    (∃ a, x.outcome w.system = .ok a ∧
      k a { w with system := x.after w.system } = .ok (answer, w')) ∨
    (∃ f, x.outcome w.system = .error f ∧ answer = .fault f ∧
      w' = { w with system := x.after w.system }) := by
  obtain ⟨outcome, w₁, hperform, h⟩ := Act.bind_eq_ok.mp h
  rw [Act.perform_apply] at hperform
  cases hperform
  cases hx : x.outcome w.system with
  | ok a =>
    rw [hx] at h
    exact Or.inl ⟨a, rfl, h⟩
  | error f =>
    rw [hx] at h
    cases h
    exact Or.inr ⟨f, rfl, rfl, rfl⟩

theorem of_holdHandle {v : String} {k : Handle} {w w' : World} {answer : Answer}
    (h : holdHandle v k w = .ok (answer, w')) :
    answer = .handle k.isNull ∧ Act.assign v (.handle k) w = .ok ((), w') := by
  obtain ⟨_, w₁, hassign, h⟩ := Act.bind_eq_ok.mp h
  cases h
  exact ⟨rfl, hassign⟩

theorem Variable.delete_of_some {x : Variable} {a : Address} (via : Via)
    (h : x.address? = some a) : x.delete via = System.release a := by
  cases x with
  | owner o =>
    cases h
    rfl
  | handle k =>
    have hk : k.delete = System.release a := by rw [Handle.delete, show k.address? = some a from h]
    cases via <;> exact hk

theorem Variable.delete_of_none {x : Variable} (via : Via) (h : x.address? = none) :
    x.delete via = pure () := by
  cases x with
  | owner o => cases h
  | handle k =>
    have hk : k.delete = pure () := by rw [Handle.delete, show k.address? = none from h]
    cases via <;> exact hk

theorem of_report {setting : Setting} {w w' : World} {s : Step} {r : Report}
    (h : s.report setting w = .ok (r, w')) :
    s.run setting w = .ok (r.answer, w') := by
  obtain ⟨_, _, hbefore, h⟩ := Act.bind_eq_ok.mp h
  cases hbefore
  obtain ⟨answer, w₁, hrun, h⟩ := Act.bind_eq_ok.mp h
  obtain ⟨_, _, hafter, h⟩ := Act.bind_eq_ok.mp h
  cases hafter
  cases h
  exact hrun

end Script

end AutoReset
