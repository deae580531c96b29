import AutoReset.Proofs.Script.Effect
import Mathlib.Data.Finset.Max
/-!
# Space for events

Which places memory has for an event depends on the events that there are. So in one script an
event can be refused for lack of space, and be granted in another one in which fewer events
stay. Where scripts are compared in which different events stay, it has to be said that space
does not run out (`AutoReset.Script.Roomy`).

It does not run out for any script of up to `2 ^ 40` steps where each event takes the first place at
which it fits (`AutoReset.Script.roomy_of_length_le`). All events are of one size, a
multiple of the alignment, so each stands at the bottom of memory or where another one ends, and
no step makes the last one end more than one event further up.
-/

namespace AutoReset

/-! ### The first place at which an event fits -/

namespace Placement

/-- **Blocks that end no further up** than so many events would, one behind the other from the
bottom of memory, and each at a multiple of the alignment of an event. -/
def Packed (n : Nat) (live : List Block) : Prop :=
  ∀ b ∈ live, b.stop % Cell.layout.align = 0 ∧ b.stop ≤ bottom + n * Cell.layout.size

variable {n : Nat} {live : List Block}

theorem value_of_tryAt {l : Layout} {p : Nat} {a : Address} (h : tryAt live l p = some a) :
    a.value = p := by
  unfold tryAt at h
  split at h
  · split at h
    · cases h
      rfl
    · cases h
  · cases h

/-- Every place that is tried is within the bounds. -/
theorem Packed.bounds (h : Packed n live) {p : Nat} (hp : p ∈ bottom :: live.map Block.stop) :
    alignUp Cell.layout.align p = p ∧ p % Cell.layout.align = 0 ∧
      p ≤ bottom + n * Cell.layout.size := by
  have hbounds : p % Cell.layout.align = 0 ∧ p ≤ bottom + n * Cell.layout.size := by
    rcases List.mem_cons.mp hp with rfl | hp
    · exact ⟨rfl, Nat.le_add_right ..⟩
    · obtain ⟨b, hb, rfl⟩ := List.mem_map.mp hp
      exact h b hb
  refine ⟨?_, hbounds⟩
  have halign : Cell.layout.align = 8 := rfl
  have hmod := hbounds.1
  rw [halign] at hmod ⊢
  unfold alignUp
  omega

/-- An event that found its place ends no further up than one event more would. -/
theorem Packed.stop_le (h : Packed n live) {a : Address}
    (ha : firstFit.place past live Cell.layout = some a) :
    (Cell.block a).stop % Cell.layout.align = 0 ∧
      (Cell.block a).stop ≤ bottom + (n + 1) * Cell.layout.size := by
  obtain ⟨p, hp, hfit⟩ := List.exists_of_findSome?_eq_some ha
  obtain ⟨halign, hmod, hle⟩ := h.bounds hp
  rw [halign] at hfit
  have hvalue := value_of_tryAt hfit
  have hlayout : Cell.layout.align = 8 ∧ Cell.layout.size = 72 := ⟨rfl, rfl⟩
  simp only [Block.stop, Cell.block, hvalue, hlayout.1, hlayout.2] at hmod hle ⊢
  omega

/-- **There is a place behind the last event**, as long as that is below the top of memory. -/
theorem Packed.exists_place (h : Packed n live) (hn : n < 2 ^ 40) :
    (firstFit.place past live Cell.layout).isSome := by
  obtain ⟨p, hp, hmax⟩ := Finset.exists_max_image (bottom :: live.map Block.stop).toFinset id
    ⟨bottom, by simp⟩
  replace hp := List.mem_toFinset.mp hp
  obtain ⟨halign, hmod, hle⟩ := h.bounds hp
  have hlast : ∀ q ∈ bottom :: live.map Block.stop, q ≤ p := fun q hq =>
    hmax q (List.mem_toFinset.mpr hq)
  have hpos : 0 < p := Nat.lt_of_lt_of_le (by decide) (hlast bottom List.mem_cons_self)
  have hfits : Fits live Cell.layout p hpos := by
    refine ⟨hmod, by decide, ?_, fun b hb => Or.inr ?_⟩
    · have hsize : Cell.layout.size = 72 := rfl
      rw [hsize] at hle ⊢
      simp only [bottom, top] at hle ⊢
      omega
    · exact hlast _ (List.mem_cons_of_mem _ (List.mem_map_of_mem hb))
  refine List.findSome?_isSome_iff.mpr ⟨p, hp, ?_⟩
  rw [halign, tryAt, dif_pos hpos, if_pos hfits]
  rfl

end Placement

/-! ### What a step adds -/

/-- Memory is found where the policy says. -/
theorem System.place_of_askMemory {policy : Placement} {o : Origin} {s : System} {a : Address}
    (h : (s.askMemory policy o).1 = some a) :
    policy.place s.heap.past s.heap.live Cell.layout = some a := by
  have halloc : ∀ heap : Heap, (heap.alloc policy Cell.layout).1 = some a →
      policy.place heap.past heap.live Cell.layout = some a := by
    intro heap hheap
    unfold Heap.alloc at hheap
    cases hp : policy.place heap.past heap.live Cell.layout with
    | none =>
      rw [hp] at hheap
      cases hheap
    | some b =>
      rw [hp] at hheap
      exact hheap
  cases o with
  | system => exact halloc _ h
  | ledger k =>
    simp only [askMemory] at h
    cases hk : s.ledger? k with
    | none =>
      rw [hk] at h
      cases h
    | some l =>
      simp only [hk, Ledger.alloc] at h
      split at h
      · cases h
      · refine halloc _ ?_
        cases hr : s.heap.alloc policy Cell.layout with
        | mk r heap =>
          rw [hr] at h
          cases r <;> exact h

namespace Deed

variable {ds ds' : List Deed} {e : Origin × Address}

theorem granted_append (ds ds' : List Deed) : granted (ds ++ ds') = granted ds ++ granted ds' := by
  induction ds with
  | nil => rfl
  | cons d ds ih =>
    cases d with
    | created o r => simp only [List.cons_append, granted, ih, List.append_assoc]
    | released a => exact ih

/-- What is there after some deeds was there before, or there was memory for it since. -/
theorem mem_left_append (h : e ∈ left (ds' ++ ds)) : e ∈ left ds ∨ e ∈ granted ds' := by
  induction ds' with
  | nil => exact Or.inl h
  | cons d ds' ih =>
    cases d with
    | created o r =>
      rcases List.mem_append.mp h with h | h
      · exact Or.inr (List.mem_append_left _ h)
      · exact (ih h).imp_right (List.mem_append_right _)
    | released a => exact ih (List.mem_filter.mp h).1

end Deed

namespace Script

variable {setting : Setting} {w w' : World} {s : Step} {answer : Answer} {ds : List Deed} {n : Nat}

theorem World.granted_dropped (w : World) (v : String) : Deed.granted (w.dropped v) = [] := by
  unfold dropped
  split <;> rfl

/-- **Memory that a step takes** is where the policy says. -/
theorem Step.place_of_mem_granted {policy : Placement} {e : Origin × Address}
    (h : e ∈ Deed.granted (s.deeds policy w answer)) :
    policy.place w.system.heap.past w.system.heap.live Cell.layout = some e.2 := by
  have hsought : ∀ {memory}, e ∈ Deed.granted (w.sought policy memory) →
      policy.place w.system.heap.past w.system.heap.live Cell.layout = some e.2 := by
    intro memory he
    unfold World.sought at he
    cases ho : w.origin? memory with
    | none =>
      rw [ho] at he
      cases he
    | some o =>
      rw [ho] at he
      simp only [Option.map_some, Option.toList_some, Deed.granted, List.append_nil, List.mem_map,
        Option.mem_toList] at he
      obtain ⟨a, ha, rfl⟩ := he
      exact System.place_of_askMemory ha
  have hcreation : ∀ {v memory}, e ∈ Deed.granted
      ((if answer.holds then w.dropped v else []) ++ w.sought policy memory) →
      policy.place w.system.heap.past w.system.heap.live Cell.layout = some e.2 := by
    intro v memory he
    rw [Deed.granted_append] at he
    rcases List.mem_append.mp he with he | he
    · split at he
      · rw [w.granted_dropped] at he
        cases he
      · cases he
    · exact hsought he
  cases s with
  | new v memory | create v memory | createForeign v => exact hcreation h
  | null v source | copy v u via =>
    rw [Step.deeds, w.granted_dropped] at h
    cases h
  | delete v via =>
    simp only [Step.deeds, World.deleted] at h
    cases ha : (w.vars.get? v).bind Variable.address? with
    | none =>
      rw [ha] at h
      cases h
    | some a =>
      rw [ha] at h
      cases h
  | _ => cases h

/-! ### Whole scripts -/

/-- **Space does not run out**: whenever an event is created, there is a place for it. -/
def Roomy (setting : Setting) : List Step → World → Prop
  | [], _ => True
  | s :: steps, w =>
    (s.creation?.isSome →
        (setting.policy.place w.system.heap.past w.system.heap.live Cell.layout).isSome) ∧
      ∀ r ∈ (s.run setting w).toOption, Roomy setting steps r.2

instance decidableRoomy (setting : Setting) :
    (steps : List Step) → (w : World) → Decidable (Roomy setting steps w)
  | [], _ => .isTrue trivial
  | s :: steps, w =>
    haveI : DecidablePred fun r : Answer × World => Roomy setting steps r.2 :=
      fun r => decidableRoomy setting steps r.2
    inferInstanceAs (Decidable
      ((s.creation?.isSome →
          (setting.policy.place w.system.heap.past w.system.heap.live Cell.layout).isSome) ∧
        ∀ r ∈ (s.run setting w).toOption, Roomy setting steps r.2))

/-- **A step makes the last event end** no more than one event further up. -/
theorem World.Keeps.packed_step (h : w.Keeps ds) (hpolicy : setting.policy = .firstFit)
    (hpacked : Placement.Packed n w.system.heap.live)
    (hrun : s.run setting w = .ok (answer, w')) :
    Placement.Packed (n + 1) w'.system.heap.live := by
  intro b hb
  rw [(h.step hrun).accounts.live] at hb
  obtain ⟨e, he, rfl⟩ := List.mem_map.mp hb
  rcases Deed.mem_left_append he with he | he
  · have hold : Cell.block e.2 ∈ w.system.heap.live :=
      h.accounts.live ▸ List.mem_map_of_mem he
    obtain ⟨hmod, hle⟩ := hpacked _ hold
    exact ⟨hmod, hle.trans (Nat.add_le_add_left (Nat.mul_le_mul_right _ (Nat.le_succ n)) _)⟩
  · have hplace := Step.place_of_mem_granted he
    rw [hpolicy] at hplace
    exact hpacked.stop_le hplace

theorem World.Keeps.roomy (h : w.Keeps ds) (hpolicy : setting.policy = .firstFit)
    {steps : List Step} (hpacked : Placement.Packed n w.system.heap.live)
    (hlength : n + steps.length ≤ 2 ^ 40) : Roomy setting steps w := by
  induction steps generalizing w ds n with
  | nil => trivial
  | cons s steps ih =>
    rw [List.length_cons] at hlength
    refine ⟨fun _ => ?_, ?_⟩
    · rw [hpolicy]
      exact hpacked.exists_place (by omega)
    · rintro ⟨answer, w'⟩ hr
      have hrun := Step.run_of_mem_toOption hr
      exact ih (h.step hrun) (h.packed_step hpolicy hpacked hrun) (by omega)

/-- **There is space for every script of up to `2 ^ 40` steps** where each event takes the first
place at which it fits. -/
theorem roomy_of_length_le (hpolicy : setting.policy = .firstFit) (limit : Option Level)
    {steps : List Step} (h : steps.length ≤ 2 ^ 40) : Roomy setting steps (World.start limit) :=
  (World.keeps_start limit).roomy (n := 0) hpolicy nofun (by omega)

end Script

end AutoReset
