import AutoReset.Event.Access
import AutoReset.Proofs.Attempt
import Mathlib.Data.List.Basic
/-!
# Memory that changes hands

All that there is to know about the memory of the events in a system is its heap, the
ledgers, and where the cell at each address came from: the **tenants** of the system
(`AutoReset.System.tenants`). A call on an event leaves the tenants as they are, and so does
a log record; this holds no matter whether it ends in a fault (`AutoReset.Attempt.Leaves`),
since a fault leaves the changes made before it.

Two operations are left. Memory that is asked for is apart from all that is in use, and the
request is entered in the ledger of its origin and in no other
(`AutoReset.System.grants_askMemory`). Memory that is out of the ledger of its origin goes
back there, and the other ledgers stay as they are (`AutoReset.System.giveBack_eq`).

It makes no difference in which way an event is to be held: each of them creates it by the
one creation of the system (`AutoReset.Owner.create_eq_map` and its kin).
-/

namespace AutoReset

/-! ### The origin of a cell -/

namespace Cell

open Attempt

theorem origin_onLatch {α : Type} (x : Attempt Latch α) : Leaves origin (onLatch x) := by
  intro c
  simp only [after, onLatch]
  cases x c.latch <;> rfl

theorem origin_resume (s : Sleeper) (now : Instant) : Leaves origin (resume s now) := by
  refine (origin_onLatch _).bind fun v => ?_
  cases v with
  | answer r => exact .pure _
  | announce => exact .pure _
  | sleep b => exact Leaves.bind (fun _ => rfl) fun _ => .pure _

theorem origin_wakeLongest (now : Instant) : Leaves origin (wakeLongest now) := by
  refine Leaves.get.bind fun c => ?_
  cases c.sleepers with
  | nil => exact .pure _
  | cons s rest =>
    exact Leaves.bind (fun _ => rfl) fun _ => (origin_resume s now).bind fun _ => .pure _

theorem origin_enter (c : Call) (now : Instant) : Leaves origin (enter c now) := by
  refine (origin_onLatch _).bind fun v => ?_
  cases v with
  | answer r => exact .pure _
  | announce => exact (origin_wakeLongest now).bind fun _ => .pure _
  | sleep b => exact Leaves.bind (fun _ => rfl) fun _ => .pure _

theorem origin_expire (now : Instant) : Leaves origin (expire now) := by
  refine Leaves.get.bind fun c => ?_
  cases c.sleepers.getLast? with
  | none => exact .pure _
  | some s => exact Leaves.bind (fun _ => rfl) fun _ => origin_resume s now

end Cell

/-! ### The tenants of a system -/

namespace System

open Attempt

/-- The memory, the ledgers, and the origin of the event at each address: all that a call
on an event leaves as it is. -/
def tenants (s : System) : Heap × List Ledger × (Address → Option Origin) :=
  (s.heap, s.ledgers, fun a => (s.cell? a).map Cell.origin)

@[simp] theorem heap_place (s : System) (a : Address) (c : Option Cell) :
    (s.place a c).heap = s.heap := rfl

@[simp] theorem ledgers_place (s : System) (a : Address) (c : Option Cell) :
    (s.place a c).ledgers = s.ledgers := rfl

theorem tenants_log (r : Record) : Leaves tenants (log r) := by
  intro s
  simp only [after, log]
  cases s.logger.put r <;> rfl

theorem after_onCell {α : Type} (a : Address) (x : Attempt Cell α) (s : System) :
    (onCell a x).after s =
      match s.cell? a with
      | none => s
      | some c => s.place a (some (x.after c)) := by
  simp only [after, onCell]
  cases s.cell? a with
  | none => rfl
  | some c => cases hx : x c <;> simp only [hx]

theorem tenants_onCell {α : Type} (a : Address) {x : Attempt Cell α} (hx : Leaves Cell.origin x) :
    Leaves tenants (onCell a x) := by
  intro s
  rw [after_onCell]
  cases hc : s.cell? a with
  | none => rfl
  | some c =>
    refine Prod.ext rfl (Prod.ext rfl (funext fun b => ?_))
    by_cases hb : b = a
    · subst hb
      simp only [tenants, cell?_place_self, hc, Option.map_some, hx c]
    · simp only [tenants, cell?_place_of_ne s _ hb]

theorem tenants_logTimeout (since now : Instant) (r : Option Reply) :
    Leaves tenants (logTimeout since now r) := by
  unfold logTimeout
  split
  · exact tenants_log _
  · exact .pure _

theorem tenants_enter (now : Instant) (a : Address) (c : Call) :
    Leaves tenants (enter now a c) := by
  refine (tenants_onCell a (Cell.origin_enter c now)).bind fun p => ?_
  cases p with
  | none => exact .pure _
  | some p => exact (tenants_logTimeout _ _ _).bind fun _ => .pure _

theorem tenants_waitPatiently (patience : Duration) (now : Instant) (a : Address)
    (timeout : Duration) : Leaves tenants (waitPatiently patience now a timeout) := by
  unfold waitPatiently
  split
  · refine (tenants_enter now a _).bind fun p => ?_
    cases p.reply with
    | some r => exact .pure _
    | none =>
      exact (tenants_onCell a (Cell.origin_expire _)).bind fun _ =>
        (tenants_logTimeout _ _ _).bind fun _ => .pure _
  · exact (tenants_enter now a _).bind fun _ => .pure _

end System

/-! ### Memory that changes hands -/

/-- The memory of the event at an address. -/
def Cell.block (a : Address) : Block := ⟨a, layout⟩

/-- The ledgers, with the one of this origin changed. -/
def Origin.onLedger (f : Ledger → Ledger) (ledgers : List Ledger) : Origin → List Ledger
  | .system => ledgers
  | .ledger k => ledgers.modify k f

@[simp] theorem Origin.length_onLedger (f : Ledger → Ledger) (ledgers : List Ledger)
    (o : Origin) : (o.onLedger f ledgers).length = ledgers.length := by
  cases o with
  | system => rfl
  | ledger k => exact List.length_modify ..

theorem Origin.onLedger_ledger_of_none {f : Ledger → Ledger} {ledgers : List Ledger} {k : Nat}
    (h : ledgers[k]? = none) : (Origin.ledger k).onLedger f ledgers = ledgers := by
  simp [onLedger, List.modify_eq_set_getElem?, h]

theorem Origin.onLedger_ledger_of_some {f : Ledger → Ledger} {ledgers : List Ledger} {k : Nat}
    {l : Ledger} (h : ledgers[k]? = some l) :
    (Origin.ledger k).onLedger f ledgers = ledgers.set k (f l) := by
  simp [onLedger, List.modify_eq_set_getElem?, h]

theorem Origin.getElem?_onLedger (f : Ledger → Ledger) (ledgers : List Ledger) (o : Origin)
    (k : Nat) :
    (o.onLedger f ledgers)[k]? = if o = .ledger k then ledgers[k]?.map f else ledgers[k]? := by
  cases o with
  | system => rfl
  | ledger n =>
    by_cases hn : n = k
    · subst hn
      simp [onLedger]
    · simp [onLedger, hn]

namespace Ledger

/-- The ledger after a request that was answered so. -/
def credit (l : Ledger) (layout : Layout) (r : Option Address) : Ledger :=
  { l with
    attempts := l.attempts + 1
    total := l.total + r.toList.length
    outstanding := r.toList.map (⟨·, layout⟩) ++ l.outstanding }

/-- The ledger after a block that was out came back. -/
def debit (l : Ledger) (b : Block) : Ledger :=
  { l with outstanding := l.outstanding.erase b }

end Ledger

/-- The answer to a request for memory, and the memory after it: a new block is apart from
every other. -/
structure Heap.Grants (h : Heap) (layout : Layout) (r : Option Address) (h' : Heap) : Prop where
  live : h'.live = r.toList.map (⟨·, layout⟩) ++ h.live
  apart : ∀ a ∈ r, ∀ b ∈ h.live, Block.Apart ⟨a, layout⟩ b

section Requests

variable (policy : Placement)

theorem Heap.grants_alloc (layout : Layout) (h : Heap) :
    h.Grants layout (h.alloc policy layout).1 (h.alloc policy layout).2 := by
  unfold alloc
  cases hp : policy.place h.past h.live layout with
  | none => exact ⟨rfl, nofun⟩
  | some a =>
    refine ⟨rfl, fun b hb c hc => ?_⟩
    cases hb
    exact policy.apart hp hc

theorem Ledger.grants_alloc (layout : Layout) (l : Ledger) (h : Heap) :
    ∃ r h', l.alloc policy layout h = (r, l.credit layout r, h') ∧ h.Grants layout r h' := by
  unfold alloc
  split
  · exact ⟨none, h, rfl, rfl, nofun⟩
  · have hgrants := h.grants_alloc policy layout
    cases halloc : h.alloc policy layout with
    | mk r h' =>
      rw [halloc] at hgrants
      cases r with
      | none => exact ⟨none, h', rfl, hgrants⟩
      | some a => exact ⟨some a, h', rfl, hgrants⟩

/-- **An origin that is asked** answers, enters it in its ledger, and leaves the events and
the other ledgers as they are. -/
theorem System.grants_askMemory (o : Origin) (s : System) :
    ∃ r h', s.askMemory policy o = (r,
        { s with heap := h', ledgers := o.onLedger (·.credit Cell.layout r) s.ledgers }) ∧
      s.heap.Grants Cell.layout r h' := by
  cases o with
  | system => exact ⟨_, _, rfl, s.heap.grants_alloc policy Cell.layout⟩
  | ledger k =>
    cases hk : s.ledger? k with
    | none =>
      refine ⟨none, s.heap, ?_, rfl, nofun⟩
      simp only [askMemory, hk, Origin.onLedger_ledger_of_none hk]
    | some l =>
      obtain ⟨r, h', halloc, hgrants⟩ := l.grants_alloc policy Cell.layout s.heap
      refine ⟨r, h', ?_, hgrants⟩
      simp only [askMemory, hk, halloc, Origin.onLedger_ledger_of_some hk]

end Requests

/-- **A block that is out comes back** without a mismatch. -/
theorem Ledger.dealloc_eq {l : Ledger} {a : Address} {layout : Layout}
    (hout : ⟨a, layout⟩ ∈ l.outstanding)
    (hlayout : ∀ b ∈ l.outstanding, b.layout = layout) (h : Heap) :
    l.dealloc a layout h = (l.debit ⟨a, layout⟩, h.dealloc ⟨a, layout⟩) := by
  have hfind : l.outstanding.find? (fun b => b.address = a) = some ⟨a, layout⟩ := by
    obtain ⟨b, hb⟩ := Option.isSome_iff_exists.mp
      (List.find?_isSome.mpr ⟨_, hout, decide_eq_true rfl⟩ :
        (l.outstanding.find? fun b => b.address = a).isSome)
    have haddress : b.address = a := by simpa using List.find?_some hb
    have hb' := hlayout b (List.mem_of_find?_eq_some hb)
    rw [hb]
    cases b
    simp only at haddress hb'
    rw [haddress, hb']
  simp only [dealloc, hfind, if_true, debit]

/-- **Memory that is out of the ledger of its origin** goes back there, and the other
ledgers stay as they are. -/
theorem System.giveBack_eq {s : System} {o : Origin} {a : Address}
    (h : ∀ k, o = .ledger k → ∃ l, s.ledger? k = some l ∧ Cell.block a ∈ l.outstanding ∧
      ∀ b ∈ l.outstanding, b.layout = Cell.layout) :
    s.giveBack o a =
      { s with
        heap := s.heap.dealloc (Cell.block a)
        ledgers := o.onLedger (·.debit (Cell.block a)) s.ledgers } := by
  cases o with
  | system => rfl
  | ledger k =>
    obtain ⟨l, hl, hout, hlayout⟩ := h k rfl
    have hdealloc := Ledger.dealloc_eq hout hlayout s.heap
    simp only [giveBack, hl, hdealloc, Origin.onLedger_ledger_of_some hl]
    rfl

namespace System

open Attempt

/-- The number of allocators. -/
def ledgerCount (s : System) : Nat := s.ledgers.length

theorem ledgerCount_log (r : Record) : Leaves ledgerCount (log r) :=
  fun s => congrArg (fun t => t.2.1.length) (tenants_log r s)

theorem ledgerCount_create (policy : Placement) (o : Origin) :
    Leaves ledgerCount (create policy o) := by
  refine Leaves.bind (fun s => ?_) fun r => ?_
  · obtain ⟨r, h', hask, -⟩ := s.grants_askMemory policy o
    show (s.askMemory policy o).2.ledgerCount = _
    rw [hask]
    exact Origin.length_onLedger ..
  · cases r with
    | none => exact (ledgerCount_log _).bind fun _ => .pure _
    | some a => exact Leaves.bind (fun _ => rfl) fun _ => (ledgerCount_log _).bind fun _ => .pure _

theorem ledgerCount_giveBack (o : Origin) (a : Address) (s : System) :
    (s.giveBack o a).ledgerCount = s.ledgerCount := by
  cases o with
  | system => rfl
  | ledger k =>
    cases hk : s.ledger? k with
    | none => simp only [giveBack, hk]
    | some l => simp only [giveBack, hk, ledgerCount, List.length_set]

theorem ledgerCount_release (a : Address) : Leaves ledgerCount (release a) := by
  refine Leaves.get.bind fun s => ?_
  cases s.cell? a with
  | none => exact .pure _
  | some c => exact Leaves.bind (fun s => ledgerCount_giveBack c.origin a _) fun _ => ledgerCount_log _

end System

/-! ### Three ways to hold an event -/

theorem System.tenants_run (now : Instant) (e : Entry) :
    Attempt.Leaves System.tenants (System.run now e) := by
  cases e with
  | call a c => exact System.tenants_enter now a c
  | skip r => exact .pure _

theorem Owner.create_eq_map (policy : Placement) (o : Origin) :
    Owner.create policy o =
      (fun | some a => .ok ⟨a⟩ | none => .error .allocationFailure) <$>
        System.create policy o := by
  funext s
  rw [Owner.create, Attempt.bind_apply, Attempt.map_apply]
  rcases System.create policy o s with ⟨_ | a, s⟩ | ⟨f, s⟩ <;> rfl

/-- The handle of an event that was to be created. -/
def Handle.ofResult : Option Address → Handle
  | some a => .ofAddress a
  | none => .null

@[simp] theorem Handle.address?_ofResult (r : Option Address) : (ofResult r).address? = r := by
  cases r with
  | none => rfl
  | some a => exact address?_ofAddress a

theorem Handle.create_eq_map (policy : Placement) (o : Origin) :
    Handle.create policy o = ofResult <$> System.create policy o := by
  funext s
  rw [Handle.create, Attempt.bind_apply, Attempt.map_apply]
  rcases System.create policy o s with ⟨_ | a, s⟩ | ⟨f, s⟩ <;> rfl

theorem Foreign.create_eq_map (policy : Placement) :
    Foreign.create policy = Handle.raw <$> Handle.create policy .system := by
  funext s
  rw [Foreign.create, Attempt.bind_apply, Attempt.map_apply]
  cases Handle.create policy .system s <;> rfl

end AutoReset
