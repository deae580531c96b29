import AutoReset.Proofs.Event.Tenants
import Mathlib.Data.List.Nodup
import Mathlib.Data.List.Perm.Basic
/-!
# Tenancies: where the memory of an event comes from and goes back to

What a program does about the memory of events is a list of deeds (`AutoReset.Deed`),
newest first: it asks an origin for an event, or it releases the event at an address. This
file reads off such a list, without a look at the memory, which events there are and where
each came from (`AutoReset.Deed.left`), and where each of the others went back to
(`AutoReset.Deed.returned`). An address can be used again, so neither can be read off a
single deed.

A system **accounts** for a list of deeds (`AutoReset.System.Accounts`) when its memory, its
cells and all the ledgers are what the deeds make them. A creation and a release keep it so
(`AutoReset.System.Accounts.create`, `AutoReset.System.Accounts.release`), and it does not
matter whether they end in a fault: all that the log sink can do is to end them after the
memory has changed hands. What follows from an account is that the deeds are **settled**
(`AutoReset.System.Accounts.settles`): whatever was granted is there or went back once.
-/

namespace AutoReset

/-! ### Deeds -/

/-- What a program does about the memory of events. -/
inductive Deed where
  /-- It asks an origin for an event, which stands here if there is memory for it. -/
  | created (o : Origin) (result : Option Address)
  /-- It releases the event that stands here. -/
  | released (a : Address)
  deriving DecidableEq

namespace Deed

/-- The origins that were asked. -/
def asked : List Deed → List Origin
  | [] => []
  | .created o _ :: ds => o :: asked ds
  | .released _ :: ds => asked ds

/-- The events that there was memory for, each with its origin. -/
def granted : List Deed → List (Origin × Address)
  | [] => []
  | .created o r :: ds => r.toList.map (o, ·) ++ granted ds
  | .released _ :: ds => granted ds

/-- The events that there are after the deeds, each with its origin. -/
def left : List Deed → List (Origin × Address)
  | [] => []
  | .created o r :: ds => r.toList.map (o, ·) ++ left ds
  | .released a :: ds => (left ds).filter fun e => e.2 ≠ a

/-- The events that were released, each with the origin that it came from. -/
def returned : List Deed → List (Origin × Address)
  | [] => []
  | .created _ _ :: ds => returned ds
  | .released a :: ds => (left ds).filter (fun e => e.2 = a) ++ returned ds

/-- Is every event created where there is none, and released where there is one? -/
def Fair : List Deed → Prop
  | [] => True
  | .created _ r :: ds => (∀ a ∈ r, a ∉ (left ds).map Prod.snd) ∧ Fair ds
  | .released a :: ds => a ∈ (left ds).map Prod.snd ∧ Fair ds

variable {ds : List Deed} {o : Origin} {a : Address}

/-- **Every event there was memory for is still there or was released**, and not both; this
counts an address as often as it was used. -/
theorem granted_perm (ds : List Deed) : (granted ds).Perm (left ds ++ returned ds) := by
  induction ds with
  | nil => exact .nil
  | cons d ds ih =>
    cases d with
    | created o r =>
      simp only [granted, left, returned, List.append_assoc]
      exact ih.append_left _
    | released a =>
      refine ih.trans ?_
      simp only [left, returned, ← List.append_assoc]
      refine List.Perm.append_right _ ?_
      have hsplit := List.filter_append_perm (fun e : Origin × Address => e.2 ≠ a) (left ds)
      simpa using hsplit.symm

theorem Fair.nodup (h : Fair ds) : ((left ds).map Prod.snd).Nodup := by
  induction ds with
  | nil => exact List.nodup_nil
  | cons d ds ih =>
    cases d with
    | created o r =>
      obtain ⟨hnew, hds⟩ := h
      cases r with
      | none => exact ih hds
      | some a => exact List.nodup_cons.mpr ⟨hnew a rfl, ih hds⟩
    | released a => exact (ih h.2).sublist ((List.filter_sublist).map _)

/-- The origin of an event that is there is determined. -/
theorem Fair.eq_of_mem (h : Fair ds) {e : Origin × Address} (he : e ∈ left ds)
    (ho : (o, a) ∈ left ds) (ha : e.2 = a) : e = (o, a) :=
  List.inj_on_of_nodup_map h.nodup he ho ha

/-- **A release gives one event back**, to the origin that it came from. -/
theorem Fair.returned_released (h : Fair ds) (ho : (o, a) ∈ left ds) :
    returned (.released a :: ds) = (o, a) :: returned ds := by
  have hone : (left ds).filter (fun e => e.2 = a) = [(o, a)] := by
    have hsub : ∀ e ∈ left ds, (decide (e.2 = a)) = (e == (o, a)) := by
      intro e he
      rw [Bool.eq_iff_iff, decide_eq_true_iff, beq_iff_eq]
      exact ⟨h.eq_of_mem he ho, fun hea => hea ▸ rfl⟩
    rw [List.filter_congr hsub, List.filter_beq,
      List.count_eq_one_of_mem h.nodup.of_map ho]
    rfl
  simp only [returned, hone, List.singleton_append]

theorem Fair.length_returned (h : Fair ds) :
    (returned ds).length = ds.countP fun d => d matches .released _ := by
  induction ds with
  | nil => rfl
  | cons d ds ih =>
    cases d with
    | created o r => simpa [returned] using ih h.2
    | released a =>
      obtain ⟨⟨o, a⟩, ho, rfl⟩ := List.mem_map.mp h.1
      rw [h.2.returned_released ho, List.length_cons, ih h.2, List.countP_cons_of_pos rfl]

/-- Memory comes only from an origin that was asked. -/
theorem fst_mem_asked {e : Origin × Address} (h : e ∈ granted ds) : e.1 ∈ asked ds := by
  induction ds with
  | nil => cases h
  | cons d ds ih =>
    cases d with
    | created o r =>
      rcases List.mem_append.mp h with h | h
      · obtain ⟨b, -, rfl⟩ := List.mem_map.mp h
        exact List.mem_cons_self
      · exact List.mem_cons_of_mem _ (ih h)
    | released b => exact ih h

theorem mem_granted {e : Origin × Address} (h : e ∈ left ds) : e ∈ granted ds :=
  (granted_perm ds).mem_iff.mpr (List.mem_append_left _ h)

end Deed

/-! ### Accounts -/

/-- **What a ledger says** after these deeds, if it is the one of this origin. -/
structure Ledger.Tallies (l : Ledger) (o : Origin) (ds : List Deed) : Prop where
  /-- It was asked once for every event. -/
  attempts : l.attempts = (Deed.asked ds).count o
  /-- There was memory for every event that came of it. -/
  total : l.total = (Deed.granted ds).countP fun e => e.1 = o
  /-- Nothing came back that was not out, or under another layout. -/
  mismatched : l.mismatched = 0
  /-- The memory of its events is out, and no other. -/
  outstanding : l.outstanding =
    ((Deed.left ds).filter fun e => e.1 = o).map fun e => Cell.block e.2

/-- **A system accounts for these deeds.** -/
structure System.Accounts (s : System) (ds : List Deed) : Prop where
  /-- No event was created where one was, and none was released twice. -/
  fair : Deed.Fair ds
  /-- The memory in use is that of the events. -/
  live : s.heap.live = (Deed.left ds).map fun e => Cell.block e.2
  /-- The cells are the events, and each knows its origin. -/
  cells : ∀ o a, (o, a) ∈ Deed.left ds ↔ (s.cell? a).map Cell.origin = some o
  /-- The ledgers say so. -/
  ledgers : ∀ k l, s.ledger? k = some l → l.Tallies (.ledger k) ds
  /-- Only allocators that exist were asked. -/
  known : ∀ k, .ledger k ∈ Deed.asked ds → k < s.ledgers.length

/-- To take the memory of an event off a list is to take off the event. -/
theorem Deed.Fair.erase_block {ds : List Deed} (h : Fair ds) {es : List (Origin × Address)}
    (hes : es.Sublist (left ds)) (a : Address) :
    (es.map fun e => Cell.block e.2).erase (Cell.block a) =
      (es.filter fun e => e.2 ≠ a).map fun e => Cell.block e.2 := by
  have hinj : Function.Injective Cell.block := fun a b hab => congrArg Block.address hab
  have hnodup : (es.map fun e => Cell.block e.2).Nodup := by
    have hsnd := (h.nodup.sublist (hes.map Prod.snd)).map hinj
    rwa [List.map_map] at hsnd
  rw [hnodup.erase_eq_filter, List.filter_map]
  congr 1
  refine List.filter_congr fun e _ => ?_
  rw [Function.comp_apply, Bool.eq_iff_iff, bne_iff_ne, decide_eq_true_iff, hinj.ne_iff]

/-- **A system settles these deeds**: it accounts for them, every event that was granted is
there or went back to its origin by one release, and each ledger counts the two apart. -/
structure System.Settles (s : System) (ds : List Deed) : Prop extends s.Accounts ds where
  /-- What was granted is what is there and what went back. -/
  once : (Deed.granted ds).Perm (Deed.left ds ++ Deed.returned ds)
  /-- Every release gave one event back. -/
  back : (Deed.returned ds).length = ds.countP fun d => d matches .released _
  /-- What is out of a ledger is there, and the rest of what there was memory for came back. -/
  counted : ∀ k l, s.ledger? k = some l →
    l.live = (Deed.left ds).countP (fun e => e.1 = .ledger k) ∧
    l.live + (Deed.returned ds).countP (fun e => e.1 = .ledger k) = l.total

namespace Ledger.Tallies

variable {l : Ledger} {o o' : Origin} {ds : List Deed}

/-- What is out of a ledger and what came back make up what went out. -/
theorem live_add_returned (h : l.Tallies o ds) :
    l.live + (Deed.returned ds).countP (fun e => e.1 = o) = l.total := by
  rw [h.total, (Deed.granted_perm ds).countP_eq, List.countP_append, live, h.outstanding,
    List.length_map, ← List.countP_eq_length_filter]

/-- The ledger of an allocator that was never asked is empty. -/
theorem of_not_asked (plan : FailurePlan) (h : o ∉ Deed.asked ds) :
    ({ plan } : Ledger).Tallies o ds where
  attempts := (List.count_eq_zero_of_not_mem h).symm
  total := by
    refine (List.countP_eq_zero.mpr fun e he hea => h ?_).symm
    exact of_decide_eq_true hea ▸ Deed.fst_mem_asked he
  mismatched := rfl
  outstanding := by
    rw [List.filter_eq_nil_iff.mpr, List.map_nil]
    intro e he hea
    exact h (of_decide_eq_true hea ▸ Deed.fst_mem_asked (Deed.mem_granted he))

theorem created (h : l.Tallies o ds) (r : Option Address) :
    (l.credit Cell.layout r).Tallies o (.created o r :: ds) where
  attempts := by simp [credit, Deed.asked, h.attempts]
  total := by
    cases r <;> simp [credit, Deed.granted, h.total]
  mismatched := h.mismatched
  outstanding := by
    cases r <;> simp [credit, Deed.left, h.outstanding, Cell.block]

theorem created_of_ne (h : l.Tallies o ds) (hne : o' ≠ o) (r : Option Address) :
    l.Tallies o (.created o' r :: ds) where
  attempts := by simp [Deed.asked, h.attempts, hne]
  total := by
    cases r <;> simp [Deed.granted, h.total, hne]
  mismatched := h.mismatched
  outstanding := by
    cases r <;> simp [Deed.left, h.outstanding, hne]

theorem released (h : l.Tallies o ds) (hf : Deed.Fair ds) {a : Address} :
    (l.debit (Cell.block a)).Tallies o (.released a :: ds) where
  attempts := h.attempts
  total := h.total
  mismatched := h.mismatched
  outstanding := by
    simp only [debit, h.outstanding, hf.erase_block List.filter_sublist, Deed.left,
      List.filter_filter, Bool.and_comm]

theorem released_of_ne (h : l.Tallies o ds) (hf : Deed.Fair ds) {a : Address}
    (ha : (o', a) ∈ Deed.left ds) (hne : o' ≠ o) : l.Tallies o (.released a :: ds) where
  attempts := h.attempts
  total := h.total
  mismatched := h.mismatched
  outstanding := by
    -- the event at this address is none of those of `o`
    have hother : ∀ e ∈ Deed.left ds,
        decide (e.1 = o) = (decide (e.1 = o) && decide (e.2 ≠ a)) := by
      intro e he
      by_cases hea : e.2 = a
      · rw [hf.eq_of_mem he ha hea]
        simp [hne]
      · simp [hea]
    simp only [h.outstanding, Deed.left, List.filter_filter, List.filter_congr hother]

end Ledger.Tallies

namespace System.Accounts

variable {s s' : System} {o : Origin} {a : Address} {ds : List Deed}

/-- The account is one of the tenants. -/
theorem of_tenants (h : s.Accounts ds) (ht : s'.tenants = s.tenants) : s'.Accounts ds := by
  obtain ⟨hheap, hledgers, hcells⟩ : s'.heap = s.heap ∧ s'.ledgers = s.ledgers ∧
      (fun a => (s'.cell? a).map Cell.origin) = fun a => (s.cell? a).map Cell.origin := by
    simpa only [tenants, Prod.mk.injEq] using ht
  constructor
  case fair => exact h.fair
  case live => rw [hheap, h.live]
  case cells => exact fun o a => (h.cells o a).trans (by rw [congrFun hcells a])
  case ledgers => exact fun k l hk => h.ledgers k l (by rw [← hk, ledger?, ledger?, hledgers])
  case known => exact fun k hk => hledgers ▸ h.known k hk

/-- Nothing was done, and there is nothing. -/
theorem of_empty : System.empty.Accounts [] where
  fair := trivial
  live := rfl
  cells := by simp [Deed.left, System.empty, cell?]
  ledgers := nofun
  known := nofun

theorem setUp (h : s.Accounts ds) (plan : FailurePlan) :
    ((System.setUp plan).after s).Accounts ds := by
  show ({ s with ledgers := s.ledgers ++ [{ plan }] } : System).Accounts ds
  constructor
  case fair => exact h.fair
  case live => exact h.live
  case cells => exact h.cells
  case ledgers =>
    intro k l hl
    by_cases hlt : k < s.ledgers.length
    · exact h.ledgers k l (by rw [← hl]; exact (List.getElem?_append_left hlt).symm)
    · -- nobody has asked the new allocator yet
      obtain ⟨hk, rfl⟩ : k = s.ledgers.length ∧ { plan } = l := by
        have hk := (List.getElem?_eq_some_iff.mp hl).1
        rw [List.length_append, List.length_singleton] at hk
        obtain rfl : k = s.ledgers.length := by omega
        exact ⟨rfl, by simpa [ledger?] using hl⟩
      exact .of_not_asked plan fun hasked => hlt (h.known k hasked)
  case known =>
    intro k hk
    have hlt := h.known k hk
    rw [List.length_append]
    omega

/-- **Where memory is asked for, there is no event.** -/
theorem fresh_of_grants (h : s.Accounts ds) {r : Option Address} {h' : Heap}
    (hr : s.heap.Grants Cell.layout r h') (ha : a ∈ r) : a ∉ (Deed.left ds).map Prod.snd := by
  intro hmem
  obtain ⟨e, he, rfl⟩ := List.mem_map.mp hmem
  have hblock : Cell.block e.2 ∈ s.heap.live := h.live ▸ List.mem_map_of_mem he
  have hapart := hr.apart e.2 ha _ hblock
  have hsize : Cell.layout.size = 72 := rfl
  simp only [Block.Apart, Block.stop, Cell.block, hsize] at hapart
  omega

/-! ### Creation and release -/

section Create

variable (policy : Placement)

/-- What a creation does before it is put on record. -/
theorem tenants_after_create (o : Origin) (s : System) :
    ((System.create policy o).after s).tenants =
      match s.askMemory policy o with
      | (none, s) => s.tenants
      | (some a, s) => (s.place a (some (.fresh o))).tenants := by
  have hask : (modifyGet (askMemory policy o) : Attempt System (Option Address)) s =
      .ok (s.askMemory policy o).1 (s.askMemory policy o).2 := rfl
  rw [System.create, Attempt.after_bind, hask]
  rcases s.askMemory policy o with ⟨_ | a, s⟩
  · exact ((tenants_log _).bind fun _ => .pure _) s
  · exact ((tenants_log _).bind fun _ => .pure _) (s.place a (some (.fresh o)))

/-- A creation that returns says where the event stands. -/
theorem eq_of_create {r : Option Address} (h : System.create policy o s = .ok r s') :
    r = (s.askMemory policy o).1 := by
  obtain ⟨r', s₁, hask, h⟩ := Attempt.exists_of_bind h
  obtain ⟨rfl, rfl⟩ : r' = (s.askMemory policy o).1 ∧ s₁ = (s.askMemory policy o).2 := by
    cases hask
    exact ⟨rfl, rfl⟩
  cases hr : (s.askMemory policy o).1 with
  | none =>
    rw [hr] at h
    obtain ⟨_, _, -, h⟩ := Attempt.exists_of_bind h
    cases h
    rfl
  | some a =>
    rw [hr] at h
    obtain ⟨_, _, -, h⟩ := Attempt.exists_of_bind h
    obtain ⟨_, _, -, h⟩ := Attempt.exists_of_bind h
    cases h
    rfl

/-- **A creation is accounted for**, whatever becomes of its record. -/
theorem create (h : s.Accounts ds) (ho : ∀ k, o = .ledger k → k < s.ledgers.length) :
    ((System.create policy o).after s).Accounts
      (.created o (s.askMemory policy o).1 :: ds) := by
  obtain ⟨r, h', hask, hgrants⟩ := s.grants_askMemory policy o
  have hledger : ∀ k (l : Ledger), (o.onLedger (Ledger.credit · Cell.layout r) s.ledgers)[k]? = some l →
      l.Tallies (.ledger k) (.created o r :: ds) := by
    intro k l hl
    rw [Origin.getElem?_onLedger] at hl
    split at hl
    · next hk =>
      obtain ⟨l₀, hl₀, rfl⟩ := Option.map_eq_some_iff.mp hl
      exact hk ▸ (h.ledgers k l₀ hl₀).created r
    · next hk => exact (h.ledgers k l hl).created_of_ne hk r
  have hknown : ∀ k, .ledger k ∈ Deed.asked (.created o r :: ds) → k < s.ledgers.length := by
    intro k hk
    rcases List.mem_cons.mp hk with rfl | hk
    · exact ho k rfl
    · exact h.known k hk
  have htenants := tenants_after_create policy o s
  rw [hask] at htenants ⊢
  cases r with
  | none =>
    refine of_tenants ?_ htenants
    exact ⟨⟨nofun, h.fair⟩, hgrants.live.trans h.live, h.cells, hledger, by simpa using hknown⟩
  | some a =>
    refine of_tenants ?_ htenants
    have hnew := h.fresh_of_grants hgrants rfl
    constructor
    case fair => exact ⟨fun b hb => Option.some.inj hb ▸ hnew, h.fair⟩
    case live => simp [hgrants.live, Deed.left, h.live, Cell.block]
    case cells =>
      intro o' b
      by_cases hb : b = a
      · subst hb
        have hold : (o', b) ∉ Deed.left ds := fun hm => hnew (List.mem_map_of_mem hm)
        simp [Deed.left, hold, Cell.fresh, eq_comm]
      · rw [cell?_place_of_ne _ _ hb]
        refine Iff.trans ?_ (h.cells o' b)
        simpa [Deed.left] using fun _ hba => absurd hba hb
    case ledgers => exact hledger
    case known => simpa using hknown

end Create

/-- What a release does before it is put on record. -/
theorem tenants_after_release (a : Address) {c : Cell} (hc : s.cell? a = some c) :
    ((System.release a).after s).tenants = ((s.place a none).giveBack c.origin a).tenants := by
  rw [System.release, Attempt.after_bind, Attempt.get_apply]
  simp only [hc]
  exact tenants_log _ ((s.place a none).giveBack c.origin a)

/-- **A release is accounted for**, whatever becomes of its record: the memory goes back to
where it came from. -/
theorem release (h : s.Accounts ds) (ha : a ∈ (Deed.left ds).map Prod.snd) :
    ((System.release a).after s).Accounts (.released a :: ds) := by
  obtain ⟨⟨o, a⟩, ho, rfl⟩ := List.mem_map.mp ha
  obtain ⟨c, hc, rfl⟩ := Option.map_eq_some_iff.mp ((h.cells o a).mp ho)
  -- the memory is out of the ledger that the cell names
  have hback := giveBack_eq (s := s.place a none) (o := c.origin) (a := a) fun k hk => by
    rw [hk] at ho
    have hlt := h.known k (Deed.fst_mem_asked (Deed.mem_granted ho))
    have hl : s.ledger? k = some s.ledgers[k] := List.getElem?_eq_getElem hlt
    have hout := (h.ledgers k _ hl).outstanding
    refine ⟨_, hl, hout ▸ List.mem_map_of_mem (List.mem_filter.mpr ⟨ho, decide_eq_true rfl⟩),
      fun b hb => ?_⟩
    obtain ⟨e, -, rfl⟩ := List.mem_map.mp (hout ▸ hb)
    rfl
  refine of_tenants ?_ ((tenants_after_release a hc).trans (congrArg tenants hback))
  constructor
  case fair => exact ⟨ha, h.fair⟩
  case live =>
    simp only [Heap.dealloc, heap_place, h.live, h.fair.erase_block (List.Sublist.refl _),
      Deed.left]
  case cells =>
    intro o' b
    show _ ↔ ((s.place a none).cell? b).map Cell.origin = some o'
    by_cases hb : b = a
    · subst hb
      simp [Deed.left]
    · rw [cell?_place_of_ne _ _ hb, ← h.cells o' b]
      simp [Deed.left, hb]
  case ledgers =>
    intro k l hl
    have hl' : (c.origin.onLedger (·.debit (Cell.block a)) s.ledgers)[k]? = some l := hl
    rw [Origin.getElem?_onLedger] at hl'
    split at hl'
    · next hk =>
      obtain ⟨l₀, hl₀, rfl⟩ := Option.map_eq_some_iff.mp hl'
      exact (h.ledgers k l₀ hl₀).released h.fair
    · next hk => exact (h.ledgers k l hl').released_of_ne h.fair ho hk
  case known => simpa [Deed.asked] using h.known

/-- **Each event that was granted is there or went back, once**, and the ledgers count it so. -/
theorem settles (h : s.Accounts ds) : s.Settles ds where
  toAccounts := h
  once := Deed.granted_perm ds
  back := h.fair.length_returned
  counted := by
    intro k l hl
    have hk := h.ledgers k l hl
    refine ⟨?_, hk.live_add_returned⟩
    rw [Ledger.live, hk.outstanding, List.length_map, List.countP_eq_length_filter]

end System.Accounts

end AutoReset
