import AutoReset.Proofs.Threads.Book
import AutoReset.Proofs.Threads.History
import AutoReset.Proofs.Threads.Tally
/-!
# One call after the other

However the calls on an event overlap, they might as well have been made one after the
other on a latch that nobody shares, in the order in which they were decided. A call that
runs alone (`AutoReset.Call.Alone`) does in one go what it does in the stay that decides
it: a signal posts, a wait takes and succeeds, a bounded wait that runs out takes in vain
and counts its timeout. The stays after which a call slept leave the latch as it was, and
do not count.

So the decisions of a run, read in their order, are a sequence of calls that run alone,
from a new latch to the latch of the event (`AutoReset.Threads.Room.Trace.replays`). The
order respects that of calls which do not overlap, because each call is decided between
its making and its return. Both together are
`AutoReset.Threads.Machine.linearizable`.

Only a full counter spoils this: a call that fails on one does nothing, and there is no
such thing for a call that runs alone. Hence the bounds on signals and timeouts.
-/

namespace AutoReset

/-! ### Calls that run alone -/

namespace Call

/-- **A call that runs alone**, from one latch to another, with its answer. -/
inductive Alone : Call → Latch → Reply → Latch → Prop
  /-- A signal is a post. -/
  | signal {l l' : Latch} {b : Bool} (h : Latch.post l = .ok b l') : Alone .signal l .done l'
  /-- A try is a take, and answers with what came of it. -/
  | tryWait {l l' : Latch} {b : Bool} (h : Latch.take l = .ok b l') :
    Alone .tryWait l (.flag b) l'
  /-- A wait is a take that succeeds. -/
  | wait {l l' : Latch} (h : Latch.take l = .ok true l') : Alone .wait l .done l'
  /-- So is a bounded wait that does not run out. -/
  | waitTimeout {l l' : Latch} {d : Duration} (h : Latch.take l = .ok true l') :
    Alone (.waitTimeout d) l .done l'
  /-- One that runs out takes in vain and counts its timeout; then it puts it on record. -/
  | timedOut {l l' l'' : Latch} {d : Duration} (sinkFails : Bool)
    (h : Latch.take l = .ok false l') (h' : Latch.recordTimeout l' = .ok () l'') :
    Alone (.waitTimeout d) l (Reply.timedOut.logged sinkFails) l''
  /-- To ask for the flag is to look. -/
  | isSignaled {l : Latch} : Alone .isSignaled l (.flag l.signaled) l
  /-- To ask for the state is to look. -/
  | state {l : Latch} : Alone .state l (.state l.state) l
  /-- To ask for the counters is to look. -/
  | stats {l : Latch} : Alone .stats l (.stats l.stats) l

/-- **Calls that run alone, one after the other**, each with its answer. -/
inductive Replays (l : Latch) : List (Call × Reply) → Latch → Prop
  /-- No call at all. -/
  | nil : Replays l [] l
  /-- One call more. -/
  | snoc {l' l'' : Latch} {xs : List (Call × Reply)} {c : Call} {r : Reply}
    (h : Replays l xs l') (hc : c.Alone l' r l'') : Replays l (xs ++ [(c, r)]) l''

variable {since now : Instant} {l l' : Latch} {c : Call} {r : Reply}

/-- **A stay that decides a call is that call run alone**, unless a counter was full. -/
theorem alone_of_decides (hb : l.Balanced) (h : Decides since now l c r l')
    (hr : r ≠ .fault .counterOverflow) : c.Alone l r l' := by
  have htake : l.signaled = true → Latch.take l = .ok true l.taken := by
    intro hs
    rw [Latch.take_eq hb, if_pos hs]
  have hmiss : l.signaled = false → Latch.take l = .ok false l := by
    intro hs
    rw [Latch.take_eq hb, hs]
    rfl
  cases h with
  | posted hp =>
    refine .signal (b := !l.signaled) ?_
    rw [Latch.post_eq hb, if_neg hp]
  | answered ha =>
    cases ha with
    | overflow _ => exact absurd rfl hr
    | take hc hs =>
      cases c <;> cases hc
      · exact .wait (htake hs)
      · exact .waitTimeout (htake hs)
      · exact .tryWait (htake hs)
    | miss hs => exact .tryWait (hmiss hs)
    | expire sinkFails hs _ ht =>
      refine .timedOut sinkFails (hmiss hs) ?_
      rw [Latch.recordTimeout_eq, if_neg ht]
    | expireOverflow _ _ _ => exact absurd rfl hr
    | look hc =>
      cases c <;> cases hc
      · exact .isSignaled
      · exact .state
      · exact .stats

/-- **A call fails on a full counter only where one is full.** -/
theorem full_of_decides (h : Decides since now l c (.fault .counterOverflow) l') :
    (c = .signal ∧ l.stats.posts = Counter.last) ∨
      (c.isBounded = true ∧ l.stats.timeouts = Counter.last) := by
  generalize hr : Reply.fault .counterOverflow = r at h
  cases h with
  | posted _ => cases hr
  | answered ha =>
    cases ha with
    | overflow hp => exact Or.inl ⟨rfl, hp⟩
    | take hc _ => cases c <;> cases hc <;> cases hr
    | miss _ => cases hr
    | expire sinkFails _ _ _ => cases sinkFails <;> cases hr
    | expireOverflow _ _ ht => exact Or.inr ⟨rfl, ht⟩
    | look hc => cases c <;> cases hc <;> cases hr

end Call

namespace Threads

namespace Mark

variable {t : Nat}

/-- What was decided here, if anything. -/
def decision? : Mark t → Option (Call × Reply)
  | decided _ c r => some (c, r)
  | _ => none

/-- Is a signal decided here? -/
def isSignal : Mark t → Bool
  | decided _ .signal _ => true
  | _ => false

/-- Is a bounded wait decided here that did not consume a signal? -/
def isTimeout : Mark t → Bool
  | decided _ c r => c.isBounded && !(r = .done)
  | _ => false

end Mark

/-! ### The decisions of a run -/

/-- Two kinds of elements, each of the third kind and never of both, are no more than those
of the third kind. -/
theorem countP_add_le {α : Type} {f g k : α → Bool} (l : List α)
    (h : ∀ x, (f x).toNat + (g x).toNat ≤ (k x).toNat) :
    l.countP f + l.countP g ≤ l.countP k := by
  induction l with
  | nil => simp
  | cons x l ih =>
    have hx := h x
    simp only [List.countP_cons]
    cases hf : f x <;> cases hg : g x <;> cases hk : k x <;>
      simp only [hf, hg, hk, Bool.toNat_true, Bool.toNat_false] at hx ⊢ <;> simp <;> omega

namespace Room

variable {t : Nat} {R S : Room t} {h : List (Mark t)}

/-- Not more signals were counted than decided. -/
theorem Trace.posts_le (htr : R.Trace h S) (hR : R.latch = .fresh) :
    S.latch.stats.posts.toNat ≤ h.countP Mark.isSignal := by
  rw [(htr.counters hR).1]
  refine List.countP_mono_left fun x _ hx => ?_
  cases x with
  | decided θ c r =>
    simp only [Mark.decides, Bool.and_eq_true, decide_eq_true_eq] at hx
    rw [hx.1]
    rfl
  | _ => cases hx

/-- Not more timeouts were counted than decided. -/
theorem Trace.timeouts_le (htr : R.Trace h S) (hR : R.latch = .fresh) :
    S.latch.stats.timeouts.toNat ≤ h.countP Mark.isTimeout := by
  rw [(htr.counters hR).2.2]
  refine countP_add_le h fun x => ?_
  cases x with
  | decided θ c r =>
    simp only [Mark.decides, Mark.isTimeout]
    by_cases hr : r = .timedOut
    · subst hr
      cases c.isBounded <;> simp
    · by_cases hr' : r = .fault .sinkFailed
      · subst hr'
        cases c.isBounded <;> simp
      · simp [hr, hr']
  | _ => simp [Mark.decides, Mark.isTimeout]

/-- **The decisions of a run are calls that run alone, one after the other**, from a new
latch to that of the event. -/
theorem Trace.replays (htr : R.Trace h S) (hR : R.latch = .fresh)
    (hsignals : h.countP Mark.isSignal < 2 ^ 64) (htimeouts : h.countP Mark.isTimeout < 2 ^ 64) :
    Call.Replays .fresh (h.filterMap Mark.decision?) S.latch := by
  induction htr with
  | nil =>
    rw [hR]
    exact .nil
  | @snoc h x S T htr hx ih =>
    have hb : S.latch.Balanced := htr.balanced (hR ▸ Latch.balanced_fresh)
    have hposts := htr.posts_le hR
    have hexpired := htr.timeouts_le hR
    simp only [countP_snoc] at hsignals htimeouts
    have hprev := ih (by omega) (by omega)
    rw [List.filterMap_append]
    have hskip : x.decision? = none → T.latch = S.latch → Call.Replays .fresh
        (h.filterMap Mark.decision? ++ [x].filterMap Mark.decision?) T.latch := by
      intro hd hl
      rw [hl, List.filterMap_cons_none hd, List.filterMap_nil, List.append_nil]
      exact hprev
    cases hx.turn with
    | @decided θ c i r _ _ _ hd _ =>
      refine .snoc hprev (Call.alone_of_decides hb hd ?_)
      -- a full counter has counted more decisions than there may be
      rintro rfl
      rcases Call.full_of_decides hd with ⟨rfl, hfull⟩ | ⟨hc, hfull⟩
      · rw [hfull, Counter.toNat_last] at hposts
        simp only [Mark.isSignal, Bool.toNat_true] at hsignals
        omega
      · rw [hfull, Counter.toNat_last] at hexpired
        have hcount : (Mark.decided θ c (.fault .counterOverflow)).isTimeout = true := by
          simp [Mark.isTimeout, hc]
        rw [hcount, Bool.toNat_true] at htimeouts
        omega
    | made _ _ _ hl _ => exact hskip rfl hl
    | returned _ hl _ => exact hskip rfl hl
    | silent hz hl _ =>
      cases x with
      | moved _ | woke _ | nothing => exact hskip rfl hl
      | _ => cases hz

end Room

/-! ### The order of the decisions -/

namespace Episode

variable {t : Nat} {h : List (Mark t)} {x y : Episode t}

/-- Was the one call decided before the other one? -/
def Before (x y : Episode t) : Prop :=
  ∃ i j r s, x.decided = some (i, r) ∧ y.decided = some (j, s) ∧ i < j

theorem Before.ne (hxy : x.Before y) : x ≠ y := by
  rintro rfl
  obtain ⟨i, j, r, s, hi, hj, hlt⟩ := hxy
  cases hi.symm.trans hj
  exact Nat.lt_irrefl _ hlt

/-- **What was decided first was not made after the other one returned.** -/
theorem Before.not_precedes (hxy : x.Before y) (hx : x.Recorded h) (hy : y.Recorded h) :
    ¬ y.Precedes x := by
  obtain ⟨i, j, r, s, hi, hj, hlt⟩ := hxy
  rintro ⟨n, u, hn, hmade⟩
  obtain ⟨⟨k, hkn, hk⟩, -⟩ := hy.returned hn
  have hxi := (hx.decided hi).1
  cases hk.symm.trans hj
  omega

theorem decidedBy_iff {n : Nat} :
    x.decidedBy n = true ↔ ∃ k r, x.decided = some (k, r) ∧ k < n := by
  rw [decidedBy]
  rcases x.decided with _ | ⟨k, r⟩
  · simp
  · simp only [Option.any_some, decide_eq_true_eq, Option.some.injEq, Prod.mk.injEq]
    constructor
    · intro hlt
      exact ⟨k, r, ⟨rfl, rfl⟩, hlt⟩
    · rintro ⟨_, _, ⟨rfl, -⟩, hlt⟩
      exact hlt

/-- What is in the history was decided before its end, if at all. -/
theorem Recorded.decidedBy_length_iff (hx : x.Recorded h) :
    x.decidedBy h.length = true ↔ x.decided.isSome = true := by
  rw [decidedBy_iff, Option.isSome_iff_exists]
  constructor
  · rintro ⟨k, r, hk, -⟩
    exact ⟨_, hk⟩
  · rintro ⟨⟨k, r⟩, hk⟩
    exact ⟨k, r, hk, lt_of_mark (hx.decided hk).2⟩

end Episode

/-- The decisions up to one mark more. -/
theorem decisions_take_succ {t n : Nat} {h : List (Mark t)} {x : Mark t} (hx : h[n]? = some x) :
    (h.take (n + 1)).filterMap Mark.decision? =
      (h.take n).filterMap Mark.decision? ++ x.decision?.toList := by
  rw [List.take_add_one, List.filterMap_append, hx]
  cases hd : x.decision? <;> simp [hd]

/-- **The calls of a book that were decided before a time, in the order of their
decisions.** -/
structure Book.Order {t : Nat} (b : Book t) (h : List (Mark t)) (n : Nat)
    (order : List (Episode t)) : Prop where
  /-- These calls and no others. -/
  mem (x : Episode t) : x ∈ order ↔ x ∈ b ∧ x.decidedBy n = true
  /-- They stand in the order of their decisions. -/
  sorted : order.Pairwise Episode.Before
  /-- Those that were decided by an earlier time are the decisions up to then. -/
  decisions (j : Nat) : (order.filter (·.decidedBy j)).filterMap Episode.outcome =
    (h.take (min j n)).filterMap Mark.decision?

namespace Book

variable {t n : Nat} {b : Book t} {h : List (Mark t)} {order : List (Episode t)}

theorem order_nil : b.Order h 0 [] where
  mem x := by simp [Episode.decidedBy_iff]
  sorted := .nil
  decisions j := by simp

/-- The call that is decided next goes to the end. -/
theorem Order.snoc (ho : b.Order h n order) (ht : b.Tells h) {θ : Fin t} {c : Call} {r : Reply}
    {y : Episode t} (hx : h[n]? = some (.decided θ c r)) (hy : y ∈ b)
    (hyn : y.decided = some (n, r)) : b.Order h (n + 1) (order ++ [y]) where
  mem x := by
    rw [List.mem_append, List.mem_singleton, ho.mem, Episode.decidedBy_iff, Episode.decidedBy_iff]
    constructor
    · rintro (⟨hxb, k, s, hk, hlt⟩ | rfl)
      · exact ⟨hxb, k, s, hk, by omega⟩
      · exact ⟨hy, n, r, hyn, by omega⟩
    · rintro ⟨hxb, k, s, hk, hlt⟩
      rcases Nat.lt_succ_iff_lt_or_eq.mp hlt with hlt | rfl
      · exact Or.inl ⟨hxb, k, s, hk, hlt⟩
      · exact Or.inr (ht.alone hxb hy hk hyn)
  sorted := by
    -- all that stands in the order was decided before time `n`
    refine List.pairwise_append.mpr ⟨ho.sorted, List.pairwise_singleton _ _, ?_⟩
    intro x hxo z hz
    obtain ⟨k, s, hk, hlt⟩ := Episode.decidedBy_iff.mp ((ho.mem x).mp hxo).2
    rw [List.mem_singleton.mp hz]
    exact ⟨k, n, s, r, hk, hyn, hlt⟩
  decisions j := by
    obtain ⟨-, hyr⟩ := (ht.recorded hy).decided hyn
    cases hyr.symm.trans hx
    rw [List.filter_append, List.filterMap_append, ho.decisions j]
    by_cases hj : j ≤ n
    · have hnot : y.decidedBy j = false := by
        rw [Episode.decidedBy, hyn]
        exact decide_eq_false (by omega)
      rw [Nat.min_eq_left hj, Nat.min_eq_left (by omega)]
      simp [hnot]
    · have hby : y.decidedBy j = true := Episode.decidedBy_iff.mpr ⟨n, r, hyn, by omega⟩
      rw [Nat.min_eq_right (by omega), Nat.min_eq_right (by omega), decisions_take_succ hx]
      simp [hby, Episode.outcome, hyn, Mark.decision?]

/-- Where nothing is decided the order stays as it is. -/
theorem Order.skip (ho : b.Order h n order) (ht : b.Tells h) {x : Mark t} (hx : h[n]? = some x)
    (hd : ∀ θ c r, x ≠ .decided θ c r) : b.Order h (n + 1) order where
  mem y := by
    rw [ho.mem, Episode.decidedBy_iff, Episode.decidedBy_iff]
    constructor
    · rintro ⟨hyb, k, s, hk, hlt⟩
      exact ⟨hyb, k, s, hk, by omega⟩
    · rintro ⟨hyb, k, s, hk, hlt⟩
      refine ⟨hyb, k, s, hk, ?_⟩
      rcases Nat.lt_succ_iff_lt_or_eq.mp hlt with hlt | rfl
      · exact hlt
      · exact absurd (Option.some.inj (hx.symm.trans ((ht.recorded hyb).decided hk).2)) (hd _ _ _)
  sorted := ho.sorted
  decisions j := by
    have hnone : x.decision? = none := by
      cases x with
      | decided θ c r => exact absurd rfl (hd θ c r)
      | _ => rfl
    rw [ho.decisions j]
    by_cases hj : j ≤ n
    · rw [Nat.min_eq_left hj, Nat.min_eq_left (by omega)]
    · rw [Nat.min_eq_right (by omega), Nat.min_eq_right (by omega), decisions_take_succ hx, hnone]
      simp

theorem Tells.exists_order (ht : b.Tells h) (hn : n ≤ h.length) : ∃ order, b.Order h n order := by
  induction n with
  | zero => exact ⟨[], order_nil⟩
  | succ n ih =>
    obtain ⟨order, ho⟩ := ih (by omega)
    have hx : h[n]? = some h[n] := List.getElem?_eq_getElem (by omega)
    by_cases hd : ∃ θ c r, h[n] = .decided θ c r
    · obtain ⟨θ, c, r, hmark⟩ := hd
      rw [hmark] at hx
      obtain ⟨y, hy, hyn⟩ := ht.decided hx
      exact ⟨_, ho.snoc ht hx hy hyn⟩
    · exact ⟨_, ho.skip ht hx fun θ c r hmark => hd ⟨θ, c, r, hmark⟩⟩

end Book

/-! ### Machines -/

namespace Machine

variable {σ : Type} {t m g : Nat} {p : Program σ m g} {μ ν : Machine σ t m g}
  {as : List (Action t)}

/-- The calls that a run makes on an event. -/
def book (p : Program σ m g) (e : Fin m) (μ : Machine σ t m g) (as : List (Action t)) : Book t :=
  .ofHistory (μ.history p e as)

/-- **The calls on an event are as if made one after the other.** The calls that were
decided have an order that goes with time: no call stands after one that was made when it
had returned. Made alone in that order on a new latch, they have the answers that they
have; and at any time, those decided by then leave the latch of the event as it is then. -/
theorem linearizable (hμ : μ.Initial) (h : μ.steps p as = some ν) (e : Fin m)
    (hsignals : (μ.history p e as).countP Mark.isSignal < 2 ^ 64)
    (htimeouts : (μ.history p e as).countP Mark.isTimeout < 2 ^ 64) :
    (μ.book p e as).Tells (μ.history p e as) ∧
      ∃ order : List (Episode t), order.Nodup ∧
        (∀ x, x ∈ order ↔ x ∈ μ.book p e as ∧ x.decided.isSome = true) ∧
        order.Pairwise (fun x y => ¬ y.Precedes x) ∧
        ∀ n κ, μ.steps p (as.take n) = some κ →
          Call.Replays .fresh ((order.filter (·.decidedBy n)).filterMap Episode.outcome)
            (κ.monitor e).latch := by
  have htr := trace_of_steps (e := e) (hμ.balanced e) h
  obtain ⟨-, ht⟩ := Book.tells_of_trace htr (hμ.empty e)
  obtain ⟨order, ho⟩ := ht.exists_order (Nat.le_refl _)
  have hbook : ∀ x, x ∈ order ↔ x ∈ μ.book p e as ∧ x.decided.isSome = true := by
    intro x
    rw [ho.mem]
    exact and_congr_right fun hx => (ht.recorded hx).decidedBy_length_iff
  refine ⟨ht, order, ho.sorted.imp fun hxy => hxy.ne, hbook, ?_, fun n κ hκ => ?_⟩
  · refine ho.sorted.imp_of_mem fun {x y} hx hy hxy => ?_
    exact hxy.not_precedes (ht.recorded ((hbook x).mp hx).1) (ht.recorded ((hbook y).mp hy).1)
  · rw [ho.decisions n, ← List.take_eq_take_min, ← history_take h]
    have htr' := trace_of_steps (e := e) (hμ.balanced e) hκ
    have hle : ∀ f : Mark t → Bool,
        (μ.history p e (as.take n)).countP f ≤ (μ.history p e as).countP f := by
      intro f
      rw [history_take h]
      exact (List.take_sublist n _).countP_le
    exact htr'.replays (hμ.latch_room e) ((hle _).trans_lt hsignals) ((hle _).trans_lt htimeouts)

/-- One thread waits, one signals, and one takes what it can get. -/
def thief (e : Fin m) : Machine (Tape m 0) 3 m 0 :=
  ofTapes 0 (.replicate m .fresh) [[.call e .wait], [.call e .signal], [.call e .tryWait]] .zero

/-- The signal wakes the sleeper, but the thief is first at the lock. -/
def thiefRun (θ η ζ : Fin t) : List (Action t) :=
  [.start θ, .acquire θ, .work θ false, .sleep θ,
    .start η, .acquire η, .work η false, .notify η (some θ), .leave η,
    .start ζ, .acquire ζ, .work ζ false, .leave ζ,
    .acquire θ, .work θ false, .sleep θ]

/-- In the order stand the signal and the theft; the wait, which took twice in vain, does
not. -/
theorem linearizable_thief :
    ∃ (ν : _) (order : List (Episode 3)),
      (thief (0 : Fin 1)).steps Tape.program (thiefRun 0 1 2) = some ν ∧
      ⟨1, .signal, 4, some (6, .done), some (8, .done)⟩ ∈ order ∧
      ⟨2, .tryWait, 9, some (11, .flag true), some (12, .flag true)⟩ ∈ order ∧
      (∀ x ∈ order, x.thread ≠ 0) ∧
      Call.Replays .fresh ((order.filter (·.decidedBy 16)).filterMap Episode.outcome)
        (ν.monitor 0).latch := by
  obtain ⟨ν, hν⟩ : ∃ ν, (thief (0 : Fin 1)).steps Tape.program (thiefRun 0 1 2) = some ν :=
    Option.isSome_iff_exists.mp (by decide +kernel)
  have hinitial : (thief (0 : Fin 1)).Initial := initial_ofTapes ..
  obtain ⟨-, order, -, hmem, -, hreplays⟩ :=
    linearizable hinitial hν 0 (by decide +kernel) (by decide +kernel)
  refine ⟨ν, order, hν, (hmem _).mpr ⟨Or.inl (by decide +kernel), rfl⟩,
    (hmem _).mpr ⟨Or.inl (by decide +kernel), rfl⟩, fun x hx => ?_, hreplays 16 ν hν⟩
  obtain ⟨hx | ⟨θ, hθ⟩, hd⟩ := (hmem x).mp hx
  · have hpast : ∀ x ∈ ((thief (0 : Fin 1)).book Tape.program 0 (thiefRun 0 1 2)).past,
        x.thread ≠ 0 := by decide +kernel
    exact hpast x hx
  · -- the one call that is still open was not decided
    have hopen : ∀ θ, (((thief (0 : Fin 1)).book Tape.program 0 (thiefRun 0 1 2)).current θ).all
        (·.decided.isNone) = true := by decide +kernel
    have hnone := hopen θ
    rw [hθ] at hnone
    rw [Option.isSome_iff_ne_none] at hd
    exact absurd (Option.isNone_iff_eq_none.mp hnone) hd

end Machine

end Threads

end AutoReset
