import AutoReset.Memory.NamedBlocks
import AutoReset.Proofs.Memory.Contents
import Mathlib.Data.List.Pairwise
/-!
# The memory as a store of blocks

What a name stands for is settled by the steps under this name and by what came of them: a block
and the bytes in it (`AutoReset.NamedBlocks.entry`). No step under another name has a part in
this. The blocks that were placed and those that were given back are read off the steps in the
same way (`AutoReset.NamedBlocks.granted`, `AutoReset.NamedBlocks.released`).

The memory agrees with that: whatever policy places the blocks, a name stands for the block that
its steps say, that block reads as they say, and the blocks in use are those that were placed and
not given back (`AutoReset.NamedBlocks.Kept`). All that a step does to the memory is said once, in
`AutoReset.NamedBlocks.Effect`, and `AutoReset.NamedBlocks.faithful_store` draws it together.
-/

namespace AutoReset

namespace NamedBlocks

variable {policy : Placement} {past : List (Step × Result)} {w w' : World} {s : Step} {r : Result}
  {name : String}

/-! ### What the steps say -/

/-- Is there something to allocate? -/
def Command.IsSized : Command → Prop
  | .alloc l | .allocZeroed l => 0 < l.size
  | .realloc size => 0 < size
  | .fill _ _ | .read | .dealloc => True

instance : DecidablePred Command.IsSized
  | .alloc _ | .allocZeroed _ => inferInstanceAs (Decidable (0 < _))
  | .realloc _ => inferInstanceAs (Decidable (0 < _))
  | .fill _ _ | .read | .dealloc => .isTrue trivial

/-- Can the command be given under a name that stands for no block? -/
def Command.isFirst : Command → Bool
  | .alloc _ | .allocZeroed _ => true
  | .realloc _ | .fill _ _ | .read | .dealloc => false

/-- Was a block placed? -/
def Result.isPlaced : Result → Bool
  | .placed (some _) _ => true
  | _ => false

/-- Was a block given back? -/
def Step.givesBack (s : Step) (r : Result) : Bool :=
  match s.command with
  | .dealloc => true
  | .realloc _ => r.isPlaced
  | _ => false

/-- What a name stands for. -/
structure Entry where
  /-- The block. -/
  block : Block
  /-- What was written to it. -/
  bytes : List UInt8
  deriving DecidableEq

/-- What a name stands for after a step, if it stood for `e` before. -/
def Entry.after (e : Option Entry) : Command → Result → Option Entry
  | .alloc l, .placed (some a) _ => some ⟨⟨a, l⟩, []⟩
  | .allocZeroed l, .placed (some a) _ => some ⟨⟨a, l⟩, List.replicate l.size 0⟩
  | .realloc size, .placed (some a) _ =>
    e.map fun e =>
      ⟨⟨a, { e.block.layout with size }⟩, e.bytes.take (min e.block.layout.size size)⟩
  | .fill byte n, _ =>
    e.map fun e =>
      let n := min n e.block.layout.size
      { e with bytes := List.replicate n byte ++ e.bytes.drop n }
  | .dealloc, _ => none
  | _, _ => e

/-- **What a name stands for**, by the steps under this name alone, newest first. -/
def entry (name : String) : List (Step × Result) → Option Entry
  | [] => none
  | (s, r) :: past =>
    if s.name = name then Entry.after (entry name past) s.command r else entry name past

/-- The block that a step placed, if its name stood for `e` before. -/
def placedBlock (e : Option Entry) (s : Step) (r : Result) : Option Block :=
  if r.isPlaced then (Entry.after e s.command r).map Entry.block else none

/-- The block that a step gave back. -/
def returnedBlock (e : Option Entry) (s : Step) (r : Result) : Option Block :=
  if s.givesBack r then e.map Entry.block else none

/-- The blocks that were placed, newest first. -/
def granted : List (Step × Result) → List Block
  | [] => []
  | (s, r) :: past => (placedBlock (entry s.name past) s r).toList ++ granted past

/-- The blocks that were given back, newest first. -/
def released : List (Step × Result) → List Block
  | [] => []
  | (s, r) :: past => (returnedBlock (entry s.name past) s r).toList ++ released past

/-- The block of a name after a step was just placed, or it was there before. -/
theorem Entry.block_after {e : Option Entry} {e' : Entry} (h : e' ∈ Entry.after e s.command r) :
    e'.block ∈ placedBlock e s r ∨ ∃ e₀ ∈ e, e₀.block = e'.block := by
  cases hp : r.isPlaced with
  | true =>
    refine Or.inl ?_
    rw [placedBlock, hp, if_pos rfl, h]
    rfl
  | false =>
    refine Or.inr ?_
    unfold Entry.after at h
    split at h
    · cases hp
    · cases hp
    · cases hp
    · obtain ⟨e₀, he₀, rfl⟩ := Option.map_eq_some_iff.mp h
      exact ⟨e₀, he₀, rfl⟩
    · cases h
    · exact ⟨e', h, rfl⟩

/-- **The steps that were done so far** with what came of them, newest first, and the world that
they leave. -/
inductive Past (policy : Placement) : List (Step × Result) → World → Prop
  /-- Nothing was done yet. -/
  | start : Past policy [] {}
  /-- One more step was done. -/
  | step {past : List (Step × Result)} {w w' : World} {s : Step} {r : Result} :
    Past policy past w → step? policy w s = some (r, w') → Past policy ((s, r) :: past) w'

theorem Past.unique (h : Past policy past w) (h' : Past policy past w') : w = w' := by
  induction h generalizing w' with
  | start =>
    cases h'
    rfl
  | step _ hstep ih =>
    obtain ⟨⟩ | ⟨hbefore, hstep'⟩ := h'
    obtain rfl := ih hbefore
    rw [hstep] at hstep'
    exact (Prod.mk.inj (Option.some.inj hstep')).2

theorem Past.exists_of_append {last : List (Step × Result)} (h : Past policy (last ++ past) w) :
    ∃ w, Past policy past w := by
  induction last generalizing w with
  | nil => exact ⟨w, h⟩
  | cons p last ih =>
    obtain ⟨⟩ | ⟨hbefore, -⟩ := h
    exact ih hbefore

/-- **The results of a list of steps** are what came of them, one after the other. -/
theorem Past.run?_eq_some_iff (h : Past policy past w) {steps : List Step} {rs : List Result} :
    run? policy w steps = some rs ↔
      rs.length = steps.length ∧ ∃ w', Past policy ((steps.zip rs).reverse ++ past) w' := by
  induction steps generalizing past w rs with
  | nil =>
    constructor
    · intro hrun
      cases hrun
      exact ⟨rfl, w, h⟩
    · rintro ⟨hlength, -⟩
      rw [List.eq_nil_of_length_eq_zero hlength]
      rfl
  | cons s steps ih =>
    cases rs with
    | nil =>
      refine iff_of_false (fun hrun => ?_) fun hlength => nomatch hlength.1
      simp only [run?] at hrun
      split at hrun
      · cases hrun
      · simp at hrun
    | cons r rs =>
      rw [List.zip_cons_cons, List.reverse_cons, List.append_assoc, List.singleton_append,
        List.length_cons, List.length_cons, Nat.succ_inj]
      constructor
      · intro hrun
        cases hstep : step? policy w s with
        | none => simp [run?, hstep] at hrun
        | some p =>
          obtain ⟨r', w₁⟩ := p
          simp only [run?, hstep, Option.map_eq_some_iff] at hrun
          obtain ⟨rs', hrun, heq⟩ := hrun
          cases heq
          exact (ih (h.step hstep)).mp hrun
      · rintro ⟨hlength, w', hpast⟩
        obtain ⟨w₁, hfirst⟩ := hpast.exists_of_append
        obtain ⟨⟩ | ⟨hbefore, hstep⟩ := id hfirst
        obtain rfl := h.unique hbefore
        have hrest := (ih hfirst).mpr ⟨hlength, w', hpast⟩
        simp only [run?, hstep, hrest, Option.map_some]

/-! ### What a step does to the memory -/

/-- **What a step does**, if its name stood for `e` before. -/
structure Effect (w : World) (s : Step) (e : Option Entry) (r : Result) (w' : World) : Prop where
  /-- The name stands for what the step says, and no other name is concerned. -/
  blocks (name : String) : w'.blocks.get? name =
    if s.name = name then (Entry.after e s.command r).map Entry.block else w.blocks.get? name
  /-- One block may be given back and one placed. -/
  live : w'.heap.live =
    (placedBlock e s r).toList ++ Block.without w.heap.live (returnedBlock e s r)
  /-- A block that was placed has some size and is apart from all in use. -/
  fresh : ∀ b ∈ placedBlock e s r, 0 < b.layout.size ∧ ∀ c ∈ w.heap.live, b.Apart c
  /-- The block of the name is in use and holds what the step says. -/
  holds : ∀ e' ∈ Entry.after e s.command r,
    e'.block ∈ w'.heap.live ∧ w'.heap.Holds e'.block e'.bytes
  /-- All that is apart is the same. -/
  same : ∀ b : Block, (∀ c ∈ placedBlock e s r, b.Apart c) → (∀ c ∈ e, b.Apart c.block) →
    Heap.Same w.heap w'.heap b

/-- **The memory bears a name out**: what the name stands for is in use, and holds its bytes. -/
structure World.Bears (w : World) (name : String) (e : Option Entry) : Prop where
  /-- It is the block under the name. -/
  block : w.blocks.get? name = e.map Entry.block
  /-- It is in use and holds the bytes. -/
  holds : ∀ e' ∈ e, e'.block ∈ w.heap.live ∧ w.heap.Holds e'.block e'.bytes

variable {e : Option Entry}

/-- A name without a block stands for nothing, and a name with one for that block. -/
theorem World.Bears.exists_entry (hw : w.Bears name e)
    (hfound : (w.blocks.get? name).isSome = true) :
    ∃ e', e = some e' ∧ w.blocks.get? name = some e'.block ∧ e'.block ∈ w.heap.live ∧
      w.heap.Holds e'.block e'.bytes := by
  obtain ⟨hblock, hholds⟩ := hw
  cases e with
  | none =>
    rw [hblock] at hfound
    cases hfound
  | some e' => exact ⟨e', rfl, hblock, hholds e' rfl⟩

/-- What stands under a name reads as it should. -/
theorem World.Bears.stands (hw : w.Bears name e) :
    (w.blocks.get? name).map (fun b => Entry.mk b (w.heap.read b)) = e := by
  obtain ⟨hblock, hholds⟩ := hw
  cases e with
  | none => rw [hblock]; rfl
  | some e' => rw [hblock, Option.map_some, Option.map_some, (hholds e' rfl).2.read]

/-- A step that left everything as it was. -/
theorem World.Bears.effect_self (hw : w.Bears s.name e) (hafter : Entry.after e s.command r = e)
    (hplaced : r.isPlaced = false) (hback : s.givesBack r = false) : Effect w s e r w := by
  have hnone : placedBlock e s r = none := by rw [placedBlock, hplaced]; rfl
  have hnone' : returnedBlock e s r = none := by rw [returnedBlock, hback]; rfl
  refine ⟨fun name => ?_, ?_, ?_, ?_, fun b _ _ => .refl _ b⟩
  · split
    · next hname => rw [hafter, ← hname, hw.block]
    · rfl
  · rw [hnone, hnone', Option.toList_none, List.nil_append, Block.without]
  · rw [hnone]
    exact fun b hb => absurd hb (Option.not_mem_none b)
  · rw [hafter]
    exact hw.holds

/-- A step that placed a block under its name. -/
theorem effect_place {heap : Heap} {a : Address} {l : Layout} {cs : List UInt8}
    {gone : Option Block} (hplaced : Heap.Placed w.heap gone ⟨a, l⟩ cs heap) (hsize : 0 < l.size)
    (hafter : Entry.after e s.command (.placed (some a) l.align) = some ⟨⟨a, l⟩, cs⟩)
    (hgone : returnedBlock e s (.placed (some a) l.align) = gone)
    (hown : ∀ b ∈ gone, b ∈ e.map Entry.block) :
    Effect w s e (.placed (some a) l.align) ⟨heap, w.blocks.set s.name ⟨a, l⟩⟩ := by
  have hcame : placedBlock e s (.placed (some a) l.align) = some ⟨a, l⟩ := by
    rw [placedBlock, hafter]
    rfl
  refine ⟨fun name => ?_, ?_, ?_, ?_, fun b hnew hold => ?_⟩
  · rw [hafter]
    split
    · next hname =>
      rw [← hname]
      exact Table.get?_set_self ..
    · next hname => exact Table.get?_set_of_ne _ _ (Ne.symm hname)
  · rw [hcame, hgone]
    exact hplaced.live
  · rintro b hb
    cases hcame.symm.trans hb
    exact ⟨hsize, hplaced.apart⟩
  · rintro e' he'
    cases hafter.symm.trans he'
    refine ⟨?_, hplaced.holds⟩
    rw [hplaced.live]
    exact List.mem_cons_self
  · refine hplaced.same b (hnew _ hcame) fun g hg => ?_
    obtain ⟨c, hc, rfl⟩ := Option.map_eq_some_iff.mp (hown g hg)
    exact hold c hc

/-- A step that nothing comes of is one that needs a block, under a name without one. -/
theorem step?_isSome : (step? policy w s).isSome = true ↔
    s.command.isFirst = true ∨ (w.blocks.get? s.name).isSome = true := by
  obtain ⟨name, command⟩ := s
  cases hb : w.blocks.get? name <;> cases command <;> simp [step?, Command.isFirst, hb]

/-- **What is read is what was written.** -/
theorem World.Bears.result_read (hw : w.Bears s.name e) (hread : s.command = .read)
    (hstep : step? policy w s = some (r, w')) : ∃ e' ∈ e, r = .bytes e'.bytes := by
  have hfound := step?_isSome.mp (Option.isSome_of_eq_some hstep)
  obtain ⟨name, command⟩ := s
  cases hread
  obtain ⟨e', rfl, hget, -, hholds⟩ :=
    hw.exists_entry (hfound.resolve_left Bool.false_ne_true)
  simp only [step?, hget, Option.some.injEq, Prod.mk.injEq] at hstep
  exact ⟨e', rfl, by rw [← hstep.1, hholds.read]⟩

/-- **A fill writes as far as the block goes.** -/
theorem World.Bears.result_fill (hw : w.Bears s.name e) {byte : UInt8} {n : Nat}
    (hfill : s.command = .fill byte n) (hstep : step? policy w s = some (r, w')) :
    ∃ e' ∈ e, r = .written (min n e'.block.layout.size) := by
  have hfound := step?_isSome.mp (Option.isSome_of_eq_some hstep)
  obtain ⟨name, command⟩ := s
  cases hfill
  obtain ⟨e', rfl, hget, -⟩ := hw.exists_entry (hfound.resolve_left Bool.false_ne_true)
  simp only [step?, hget, Option.some.injEq, Prod.mk.injEq] at hstep
  exact ⟨e', rfl, hstep.1.symm⟩

/-- **Where there is no place for another size, nothing was done.** -/
theorem eq_of_not_isPlaced {size : Nat} (hrealloc : s.command = .realloc size)
    (hplaced : r.isPlaced = false) (hstep : step? policy w s = some (r, w')) : w' = w := by
  obtain ⟨name, command⟩ := s
  cases hrealloc
  cases hget : w.blocks.get? name with
  | none => simp [step?, hget] at hstep
  | some b =>
    cases hr : w.heap.realloc policy b size with
    | mk o heap =>
      simp only [step?, hget, hr] at hstep
      cases o with
      | none =>
        cases hstep
        rw [Heap.realloc_none hr]
      | some a =>
        cases hstep
        cases hplaced

/-- **Every step has its effect.** -/
theorem World.Bears.effect (hw : w.Bears s.name e) (hsized : s.command.IsSized)
    (hstep : step? policy w s = some (r, w')) : Effect w s e r w' := by
  have hfound := step?_isSome.mp (Option.isSome_of_eq_some hstep)
  obtain ⟨name, command⟩ := s
  cases command with
  | alloc l =>
    cases hr : w.heap.alloc policy l with
    | mk o heap =>
      simp only [step?, hr] at hstep
      cases o with
      | none =>
        cases hstep
        obtain rfl := Heap.alloc_none hr
        exact hw.effect_self rfl rfl rfl
      | some a =>
        cases hstep
        exact effect_place (Heap.alloc_some hr) hsized rfl rfl (by simp)
  | allocZeroed l =>
    cases hr : w.heap.allocZeroed policy l with
    | mk o heap =>
      simp only [step?, hr] at hstep
      cases o with
      | none =>
        cases hstep
        obtain rfl := Heap.allocZeroed_none hr
        exact hw.effect_self rfl rfl rfl
      | some a =>
        cases hstep
        exact effect_place (Heap.allocZeroed_some hr) hsized rfl rfl (by simp)
  | realloc size =>
    obtain ⟨e, rfl, hget, hlive, hholds⟩ := hw.exists_entry (hfound.resolve_left Bool.false_ne_true)
    cases hr : w.heap.realloc policy e.block size with
    | mk o heap =>
      simp only [step?, hget, hr] at hstep
      cases o with
      | none =>
        cases hstep
        obtain rfl := Heap.realloc_none hr
        exact hw.effect_self rfl rfl rfl
      | some a =>
        cases hstep
        exact effect_place (Heap.realloc_some hholds hlive hsized hr) hsized rfl rfl
          fun b hb => hb
  | fill byte n =>
    obtain ⟨e, rfl, hget, hlive, hholds⟩ := hw.exists_entry (hfound.resolve_left Bool.false_ne_true)
    simp only [step?, hget, Option.some.injEq, Prod.mk.injEq] at hstep
    obtain ⟨rfl, rfl⟩ := hstep
    refine ⟨fun other => ?_, rfl, fun b hb => absurd hb (Option.not_mem_none b), ?_,
      fun b _ hown => ?_⟩
    · split
      · next hname => exact hname ▸ hget
      · rfl
    · rintro e' ⟨⟩
      exact ⟨hlive, hholds.fill byte n⟩
    · exact Heap.same_overwrite _ _ (hown e rfl) (Nat.min_le_right ..)
  | read =>
    obtain ⟨e, rfl, hget, -⟩ := hw.exists_entry (hfound.resolve_left Bool.false_ne_true)
    simp only [step?, hget, Option.some.injEq, Prod.mk.injEq] at hstep
    obtain ⟨rfl, rfl⟩ := hstep
    exact hw.effect_self rfl rfl rfl
  | dealloc =>
    obtain ⟨e, rfl, hget, hlive, hholds⟩ := hw.exists_entry (hfound.resolve_left Bool.false_ne_true)
    simp only [step?, hget, Option.some.injEq, Prod.mk.injEq] at hstep
    obtain ⟨rfl, rfl⟩ := hstep
    refine ⟨fun other => ?_, rfl, fun b hb => absurd hb (Option.not_mem_none b),
      fun e' he => absurd he (Option.not_mem_none e'), fun b _ hown => ?_⟩
    · split
      · next hname => exact hname ▸ Table.get?_erase_self ..
      · next hname => exact Table.get?_erase_of_ne _ (Ne.symm hname)
    · exact Heap.same_overwrite _ _ (hown e rfl) (Nat.le_refl _)

/-! ### What the steps say is so -/

/-- **The memory bears the steps out.** -/
structure Kept (past : List (Step × Result)) (w : World) : Prop where
  /-- Every name stands for what its steps say. -/
  bears (name : String) : w.Bears name (entry name past)
  /-- Two names stand for two blocks. -/
  distinct : ∀ name other, name ≠ other → ∀ e ∈ entry name past, ∀ e' ∈ entry other past,
    e.block ≠ e'.block
  /-- The blocks in use are apart. -/
  apart : w.heap.live.Pairwise Block.Apart
  /-- They have some size. -/
  sized : ∀ b ∈ w.heap.live, 0 < b.layout.size
  /-- They are those that were placed and not given back. -/
  account (b : Block) : (granted past).count b = (released past).count b + w.heap.live.count b

theorem kept_start : Kept [] {} :=
  ⟨fun _ => ⟨rfl, nofun⟩, nofun, .nil, nofun, fun _ => rfl⟩

namespace Kept

variable {b c : Block}

/-- Blocks in use that are not the same are apart. -/
theorem apart_of_ne (h : Kept past w) (hb : b ∈ w.heap.live) (hc : c ∈ w.heap.live)
    (hne : b ≠ c) : b.Apart c :=
  h.apart.forall hb hc hne

/-- No block is in use twice. -/
theorem nodup (h : Kept past w) : w.heap.live.Nodup :=
  h.apart.imp_of_mem fun hb _ hap => hap.ne (h.sized _ hb)

/-- A block that is given back is in use until then. -/
theorem mem_of_mem_returnedBlock (h : Kept past w)
    (hb : b ∈ returnedBlock (entry s.name past) s r) :
    b ∈ w.heap.live ∧ w.blocks.get? s.name = some b := by
  unfold returnedBlock at hb
  split at hb
  · obtain ⟨e, he, rfl⟩ := Option.map_eq_some_iff.mp hb
    exact ⟨((h.bears s.name).holds e he).1, by rw [(h.bears s.name).block, he]; rfl⟩
  · cases hb

/-- A block that has a name is in use, and has no other name. -/
theorem named (h : Kept past w) (hb : w.blocks.get? name = some b) :
    b ∈ w.heap.live ∧ ∀ other, w.blocks.get? other = some b → other = name := by
  rw [(h.bears name).block] at hb
  obtain ⟨e, he, rfl⟩ := Option.map_eq_some_iff.mp hb
  refine ⟨((h.bears name).holds e he).1, fun other hother => ?_⟩
  rw [(h.bears other).block] at hother
  obtain ⟨e', he', heq⟩ := Option.map_eq_some_iff.mp hother
  by_contra hne
  exact h.distinct other name hne e' he' e he heq

/-- **A block is left at a step under its name that gives it back**, and not otherwise. -/
theorem not_mem_iff (h : Kept past w) (heff : Effect w s (entry s.name past) r w')
    (hb : b ∈ w.heap.live) :
    b ∉ w'.heap.live ↔ s.givesBack r = true ∧ w.blocks.get? s.name = some b := by
  have hold : b ∉ (placedBlock (entry s.name past) s r).toList := fun hmem => by
    obtain ⟨hsize, hfresh⟩ := heff.fresh b (Option.mem_toList.mp hmem)
    exact (hfresh b hb).ne hsize rfl
  have hreturned : returnedBlock (entry s.name past) s r = some b ↔
      s.givesBack r = true ∧ w.blocks.get? s.name = some b := by
    rw [(h.bears s.name).block, returnedBlock]
    cases s.givesBack r <;> simp
  rw [heff.live, List.mem_append, Block.mem_without_iff h.nodup, ← hreturned]
  simp [hold, hb]

/-- **A step leaves the blocks alone that are not under its name.** -/
theorem same_of_ne (h : Kept past w) (heff : Effect w s (entry s.name past) r w')
    (hb : b ∈ w.heap.live) (hother : w.blocks.get? s.name ≠ some b) :
    b ∈ w'.heap.live ∧ Heap.Same w.heap w'.heap b := by
  constructor
  · by_contra hgone
    exact hother ((h.not_mem_iff heff hb).mp hgone).2
  · refine heff.same b (fun c hc => ((heff.fresh c hc).2 b hb).symm) fun e he => ?_
    refine h.apart_of_ne hb ((h.bears s.name).holds e he).1 fun heq => hother ?_
    rw [(h.bears s.name).block, he, heq]
    rfl

/-- **A step keeps to what the steps say.** -/
theorem step (h : Kept past w) (heff : Effect w s (entry s.name past) r w') :
    Kept ((s, r) :: past) w' := by
  refine ⟨fun name => ?_, fun name other hne e he e' he' => ?_, ?_, fun b hb => ?_, fun b => ?_⟩
  · have hblocks := heff.blocks name
    by_cases hname : s.name = name
    · subst hname
      rw [if_pos rfl] at hblocks
      rw [entry, if_pos rfl]
      exact ⟨hblocks, heff.holds⟩
    · rw [if_neg hname, (h.bears name).block] at hblocks
      rw [entry, if_neg hname]
      refine ⟨hblocks, fun e he => ?_⟩
      obtain ⟨hlive, hholds⟩ := (h.bears name).holds e he
      have hget : w.blocks.get? name = some e.block := by
        rw [(h.bears name).block, he]
        rfl
      obtain ⟨hlive', hsame⟩ :=
        h.same_of_ne heff hlive fun hown => hname ((h.named hget).2 _ hown)
      exact ⟨hlive', hholds.of_same hsame⟩
  · -- one of the names may be that of the step, and then its block may be a new one
    have hstep : ∀ other, s.name ≠ other → ∀ e ∈ Entry.after (entry s.name past) s.command r,
        ∀ e' ∈ entry other past, e.block ≠ e'.block := by
      intro other hother e he e' he'
      rcases Entry.block_after he with hplaced | ⟨e₀, he₀, hsame⟩
      · obtain ⟨hsize, hfresh⟩ := heff.fresh _ hplaced
        exact (hfresh _ ((h.bears other).holds e' he').1).ne hsize
      · rw [← hsame]
        exact h.distinct s.name other hother e₀ he₀ e' he'
    unfold entry at he he'
    split at he
    · next hname =>
      rw [if_neg (hname ▸ hne)] at he'
      rw [← hname] at he hne
      exact hstep other hne e he e' he'
    · next hname =>
      split at he'
      · next hother =>
        rw [← hother] at he' hne
        exact (hstep name (Ne.symm hne) e' he' e he).symm
      · exact h.distinct name other hne e he e' he'
  · rw [heff.live, List.pairwise_append]
    refine ⟨?_, h.apart.sublist (Block.without_sublist ..), fun b hb c hc => ?_⟩
    · cases placedBlock (entry s.name past) s r with
      | none => exact .nil
      | some b => exact List.pairwise_singleton ..
    · exact (heff.fresh b (Option.mem_toList.mp hb)).2 c ((Block.without_sublist ..).subset hc)
  · rw [heff.live] at hb
    rcases List.mem_append.mp hb with hb | hb
    · exact (heff.fresh b (Option.mem_toList.mp hb)).1
    · exact h.sized b ((Block.without_sublist ..).subset hb)
  · have hmem : ∀ c ∈ returnedBlock (entry s.name past) s r, c ∈ w.heap.live :=
      fun c hc => (h.mem_of_mem_returnedBlock hc).1
    have hcount := Block.count_without (c := b) hmem
    have haccount := h.account b
    rw [heff.live, granted, released, List.count_append, List.count_append, List.count_append]
    omega

end Kept

/-- **The memory bears the steps out**, whatever was done. -/
theorem Past.kept (h : Past policy past w) (hsized : ∀ p ∈ past, p.1.command.IsSized) :
    Kept past w := by
  induction h with
  | start => exact kept_start
  | step _ hstep ih =>
    obtain ⟨hs, hbefore⟩ := List.forall_mem_cons.mp hsized
    have hkept := ih hbefore
    exact hkept.step ((hkept.bears _).effect hs hstep)

/-- **The memory is a faithful store of blocks.** Take whatever was done so far under any names,
with nothing of size zero asked for, and whatever policy places the blocks.

* More steps have just the results that come of them one after the other.
* A name stands for the block that its own steps say, and this block reads as they say.
* A block that has a name is in use, and has no other name; the blocks in use are apart.
* A block was given back as often as it was placed, or once less if it is in use.

Take any step more. It has its result unless it needs a block and its name stands for none, and

* what is read is what the steps under the name say, and a fill writes as far as the block goes;
* where there is no place for a block of another size, nothing was done;
* every block in use that is not that of the name stays in use, and reads as before;
* a block ends being in use at a step under its name that gives it back, and not otherwise. -/
theorem faithful_store (hpast : Past policy past w)
    (hsized : ∀ p ∈ past, p.1.command.IsSized) :
    (∀ steps rs, run? policy w steps = some rs ↔
      rs.length = steps.length ∧ ∃ w', Past policy ((steps.zip rs).reverse ++ past) w') ∧
    (∀ name, (w.blocks.get? name).map (fun b => Entry.mk b (w.heap.read b)) =
      entry name past) ∧
    (∀ name b, w.blocks.get? name = some b →
      b ∈ w.heap.live ∧ ∀ other, w.blocks.get? other = some b → other = name) ∧
    w.heap.live.Pairwise Block.Apart ∧
    (∀ b, (granted past).count b = (released past).count b + w.heap.live.count b ∧
      w.heap.live.count b ≤ 1) ∧
    ∀ s : Step, s.command.IsSized →
      ((step? policy w s).isSome = true ↔
        s.command.isFirst = true ∨ (entry s.name past).isSome = true) ∧
      ∀ r w', step? policy w s = some (r, w') →
        (s.command = .read → ∃ e ∈ entry s.name past, r = .bytes e.bytes) ∧
        (∀ byte n, s.command = .fill byte n →
          ∃ e ∈ entry s.name past, r = .written (min n e.block.layout.size)) ∧
        (∀ size, s.command = .realloc size → r.isPlaced = false → w' = w) ∧
        (∀ b ∈ w.heap.live, w.blocks.get? s.name ≠ some b →
          b ∈ w'.heap.live ∧ w'.heap.read b = w.heap.read b) ∧
        ∀ b ∈ w.heap.live, b ∉ w'.heap.live ↔
          s.givesBack r = true ∧ w.blocks.get? s.name = some b := by
  have hkept := hpast.kept hsized
  refine ⟨fun steps rs => hpast.run?_eq_some_iff, fun name => (hkept.bears name).stands,
    fun name b hb => hkept.named hb, hkept.apart,
    fun b => ⟨hkept.account b, List.nodup_iff_count_le_one.mp hkept.nodup b⟩, fun s hs => ?_⟩
  have hbears := hkept.bears s.name
  refine ⟨?_, fun r w' hstep => ?_⟩
  · rw [step?_isSome, hbears.block, Option.isSome_map]
  · have heff := hbears.effect hs hstep
    exact ⟨fun hread => hbears.result_read hread hstep,
      fun byte n hfill => hbears.result_fill hfill hstep,
      fun size hrealloc hplaced => eq_of_not_isPlaced hrealloc hplaced hstep,
      fun b hb hother => (hkept.same_of_ne heff hb hother).imp_right Heap.Same.read,
      fun b hb => hkept.not_mem_iff heff hb⟩

/-- A block of zeros of which a part is written over, that stays as it is when it is to be made
huge, and that is moved when it is to be made small; next to it stands a block that is given
back. -/
theorem faithful_store_moved : ∃ past w, Past .firstFit past w ∧
    (w.blocks.get? "a").map (fun b => w.heap.read b) = some [7, 7, 0] ∧
    w.blocks.get? "b" = none ∧
    (released past).count ⟨⟨4096, by decide⟩, ⟨4, 8, by decide⟩⟩ = 1 ∧
    w.heap.live.count ⟨⟨4096, by decide⟩, ⟨4, 8, by decide⟩⟩ = 0 := by
  have hrun : run? .firstFit {} [⟨"a", .allocZeroed ⟨4, 8, by decide⟩⟩,
      ⟨"b", .alloc ⟨8, 8, by decide⟩⟩, ⟨"a", .fill 7 2⟩, ⟨"a", .realloc (2 ^ 62)⟩,
      ⟨"b", .fill 9 100⟩, ⟨"a", .realloc 3⟩, ⟨"b", .dealloc⟩] =
    some [.placed (some ⟨4096, by decide⟩) 8, .placed (some ⟨4104, by decide⟩) 8, .written 2,
      .placed none 8, .written 8, .placed (some ⟨4112, by decide⟩) 8, .nothing] := rfl
  obtain ⟨-, w, hpast⟩ := Past.start.run?_eq_some_iff.mp hrun
  obtain ⟨-, hstands, -, -, haccount, -⟩ := faithful_store hpast (by decide)
  refine ⟨_, w, hpast, ?_, ?_, rfl, ?_⟩
  · have ha := congrArg (Option.map Entry.bytes) (hstands "a")
    rw [Option.map_map] at ha
    exact ha
  · exact Option.map_eq_none_iff.mp (hstands "b")
  · exact (Nat.add_eq_left.mp (haccount ⟨⟨4096, by decide⟩, ⟨4, 8, by decide⟩⟩).1.symm)

end NamedBlocks

end AutoReset
