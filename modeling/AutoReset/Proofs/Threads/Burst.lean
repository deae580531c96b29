import AutoReset.Proofs.Threads.Linearization
import AutoReset.Proofs.Threads.Ring
import AutoReset.Proofs.Threads.Rounds
/-!
# Bursts: many threads, one kind of call

In a **burst** any number of threads signal one event, each as often as it likes, while nobody
is in any other call on it. Which thread comes when is left open, and it makes no difference:
the decisions of a burst are one row of posts, and all that a post depends on is the latch that
the one before it has left. So the latch at the end is the one at the beginning, posted as
often as there were calls (`AutoReset.Threads.Machine.burst_order_independent`). Of a burst at
most one signal is kept, the first one on an empty slot; which thread it belongs to cannot be
told from what the calls return.

What is proved holds of every kind of call that never sleeps. Such calls are **iterated**
(`AutoReset.Call.Iterates`) when each of them does the same to the latch, and answers by the
latch that it finds. Of a stretch in which the event sees no other calls, as many are decided
as are made and answered (`AutoReset.Threads.Room.Trace.made_eq`), and the decisions are the
iteration, in whatever order the threads got the lock
(`AutoReset.Threads.Room.Trace.iterated`). Signals are iterated as long as they can be counted,
and tries always; the tries after a burst find the signal that was kept, and the first to be
decided takes it.
-/

namespace AutoReset

/-! ### Many signals, and many tries, one after the other -/

namespace Latch

variable {l : Latch} {n : Nat}

/-- The latch after a try: a pending signal is consumed. -/
def tried (l : Latch) : Latch := if l.signaled then l.taken else l

@[simp] theorem signaled_tried (l : Latch) : l.tried.signaled = false := by
  unfold tried
  cases hs : l.signaled
  · exact hs
  · rfl

/-- The second try finds nothing. -/
theorem tried_tried (l : Latch) : l.tried.tried = l.tried := by
  conv_lhs => rw [tried, signaled_tried]
  rfl

/-- **All tries but the first change nothing.** -/
theorem tried_iterate_succ (l : Latch) (k : Nat) : tried^[k + 1] l = l.tried := by
  induction k with
  | zero => rfl
  | succ k ih => rw [Function.iterate_succ_apply', ih, tried_tried]

/-- A try counts the signal that it consumes, and no other counter moves. -/
theorem Balanced.stats_tried (h : l.Balanced) :
    l.tried.stats.consumed.toNat = l.stats.consumed.toNat + l.signaled.toNat ∧
      l.tried.stats.posts = l.stats.posts ∧ l.tried.stats.coalesced = l.stats.coalesced ∧
      l.tried.stats.timeouts = l.stats.timeouts := by
  unfold tried
  cases hs : l.signaled with
  | true => exact ⟨Counter.toNat_succ (h.consumed_ne_last hs), rfl, rfl, rfl⟩
  | false => exact ⟨rfl, rfl, rfl, rfl⟩

/-- **What `n` signals make of a latch**: the first one on an empty slot is kept, and all others
are absorbed. -/
structure Absorbs (l : Latch) (n : Nat) (l' : Latch) : Prop where
  /-- A signal is pending if one was, or if there was any. -/
  signaled : l'.signaled = (l.signaled || decide (0 < n))
  /-- Each of them is counted. -/
  posts : l'.stats.posts.toNat = l.stats.posts.toNat + n
  /-- Each of them is absorbed, but for the one that finds the slot empty. -/
  coalesced : l'.stats.coalesced.toNat =
    l.stats.coalesced.toNat + if l.signaled then n else n - 1
  /-- Nothing is consumed. -/
  consumed : l'.stats.consumed = l.stats.consumed
  /-- Nobody runs out of time. -/
  timeouts : l'.stats.timeouts = l.stats.timeouts

/-- One signal more. -/
theorem Absorbs.posted {l' : Latch} (h : l.Absorbs n l') (hb : l'.Balanced)
    (hp : l'.stats.posts ≠ Counter.last) : l.Absorbs (n + 1) l'.posted where
  signaled := by simp [Latch.posted]
  posts := by
    rw [show l'.posted.stats.posts = l'.stats.posts + 1 from rfl, Counter.toNat_succ hp, h.posts]
    omega
  coalesced := by
    have hsignaled := h.signaled
    have hcoalesced := h.coalesced
    have hsucc := Counter.toNat_succ (hb.coalesced_ne_last hp)
    simp only [Latch.posted]
    -- the slot is still empty only if it was, and no signal has come yet
    cases hs : l.signaled <;> rw [hs] at hsignaled hcoalesced
    · by_cases hn : 0 < n
      · rw [hsignaled]
        simp only [hn, decide_true, Bool.false_or, if_true, hsucc, Bool.false_eq_true, if_false]
          at hcoalesced ⊢
        omega
      · rw [hsignaled]
        simp only [hn, decide_false, Bool.or_self, Bool.false_eq_true, if_false]
          at hcoalesced ⊢
        omega
    · rw [hsignaled]
      simp only [Bool.true_or, if_true, hsucc] at hcoalesced ⊢
      omega
  consumed := h.consumed
  timeouts := h.timeouts

/-- **Signals that can be counted are absorbed one after the other.** -/
theorem Balanced.absorbs_iterate (h : l.Balanced) (hn : l.stats.posts.toNat + n < 2 ^ 64) :
    (Latch.posted^[n] l).Balanced ∧ l.Absorbs n (Latch.posted^[n] l) := by
  induction n with
  | zero =>
    exact ⟨h, by simp, rfl, by simp, rfl, rfl⟩
  | succ n ih =>
    obtain ⟨hb, ha⟩ := ih (by omega)
    have hp : (Latch.posted^[n] l).stats.posts ≠ Counter.last := by
      rw [Counter.ne_last_iff, ha.posts]
      omega
    rw [Function.iterate_succ_apply']
    exact ⟨hb.posted hp, ha.posted hb hp⟩

end Latch

/-! ### Calls that do the same each time -/

namespace Call

/-- **The next `n` calls of one kind each do the same to the latch**, and answer by the latch
that they find. -/
def Iterates (c : Call) (f : Latch → Latch) (reply : Latch → Reply) (l : Latch) (n : Nat) : Prop :=
  ∀ k < n, ∀ since now r l', c.Decides since now (f^[k] l) r l' →
    r = reply (f^[k] l) ∧ l' = f (f^[k] l)

variable {l : Latch} {n : Nat}

/-- Signals are iterated as long as they can be counted. -/
theorem iterates_signal (h : l.Balanced) (hn : l.stats.posts.toNat + n < 2 ^ 64) :
    signal.Iterates Latch.posted (fun _ => .done) l n := by
  intro k hk since now r l' hd
  obtain ⟨-, ha⟩ := h.absorbs_iterate (n := k) (by omega)
  refine posted_of_decides ?_ hd
  rw [Counter.ne_last_iff, ha.posts]
  omega

/-- A try answers whether there was a signal, and consumes it. -/
theorem tried_of_decides {since now : Instant} {l' : Latch} {r : Reply}
    (h : Decides since now l .tryWait r l') : r = .flag l.signaled ∧ l' = l.tried := by
  cases h with
  | answered ha =>
    cases ha with
    | take htaken hs =>
      cases htaken
      exact ⟨by rw [hs], by rw [Latch.tried, if_pos hs]⟩
    | miss hs =>
      refine ⟨by rw [hs], ?_⟩
      rw [Latch.tried, hs]
      rfl
    | look hlook => cases hlook

/-- Tries are iterated. -/
theorem iterates_tryWait : tryWait.Iterates Latch.tried (fun l => .flag l.signaled) l n :=
  fun _ _ _ _ _ _ hd => tried_of_decides hd

end Call

namespace Threads

/-! ### As many calls are made as are decided and returned -/

namespace Mark

variable {t : Nat}

/-- Does the thread make a call here? -/
def madeBy (θ : Fin t) : Mark t → Bool
  | made η _ => η = θ
  | _ => false

/-- Does a call of the thread return here? -/
def returnedBy (θ : Fin t) : Mark t → Bool
  | returned η _ _ => η = θ
  | _ => false

/-- Is no other call made here than this one? -/
def makesOnly (c : Call) : Mark t → Bool
  | made _ d => d = c
  | _ => true

theorem all_makesOnly_iff {h : List (Mark t)} {c : Call} :
    h.all (Mark.makesOnly c) = true ↔ ∀ θ d, .made θ d ∈ h → d = c := by
  rw [List.all_eq_true]
  refine ⟨fun hall θ d hd => of_decide_eq_true (hall _ hd), fun hall x hx => ?_⟩
  cases x with
  | made θ d => exact decide_eq_true (hall θ d hx)
  | _ => rfl

theorem sum_madeBy (x : Mark t) : ∑ θ, (x.madeBy θ).toNat = x.isMade.toNat := by
  cases x with
  | made η c =>
    simp only [madeBy, isMade, Bool.toNat, Bool.cond_decide, Bool.cond_true]
    rw [Finset.sum_ite_eq]
    simp
  | _ => simp [madeBy, isMade]

/-- Each call is made by one thread. -/
theorem sum_countP_madeBy (h : List (Mark t)) :
    ∑ θ, h.countP (Mark.madeBy θ) = h.countP Mark.isMade := by
  induction h using List.reverseRecOn with
  | nil => simp
  | append_singleton h x ih =>
    simp only [countP_snoc, Finset.sum_add_distrib, ih, sum_madeBy]

end Mark

namespace Room

variable {t : Nat} {R S : Room t} {x : Mark t} {h : List (Mark t)}

/-- A call is in its seat from when it is made until it returns. -/
theorem Step.isSome_seat (hx : R.Step x S) (θ : Fin t) :
    (S.seat θ).isSome.toNat + (x.returnedBy θ).toNat =
      (R.seat θ).isSome.toNat + (x.madeBy θ).toNat := by
  -- one thread takes another seat, and the others keep theirs
  have hput : ∀ {η : Fin t} {u : Option Seat}, S.seat = Function.update R.seat η u →
      S.seat θ = if θ = η then u else R.seat θ := by
    intro η u hS
    rw [hS, Function.update_apply]
  cases hx.turn with
  | @made η c free _ hS =>
    rw [hput hS]
    by_cases hη : θ = η
    · subst hη
      simp [Mark.madeBy, Mark.returnedBy, free]
    · simp [Mark.madeBy, Mark.returnedBy, hη, Ne.symm hη]
  | @decided η c i r stage hs _ _ hS =>
    rw [hput hS]
    by_cases hη : θ = η
    · subst hη
      simp [Mark.madeBy, Mark.returnedBy, hs]
    · simp [Mark.madeBy, Mark.returnedBy, hη]
  | @returned η c i r hs _ hS =>
    rw [hput hS]
    by_cases hη : θ = η
    · subst hη
      simp [Mark.madeBy, Mark.returnedBy, hs]
    · simp [Mark.madeBy, Mark.returnedBy, hη, Ne.symm hη]
  | silent hsilent _ hs =>
    have hsome : (S.seat θ).isSome = (R.seat θ).isSome := by
      rw [← Option.isSome_map (f := Seat.outline), hs, Option.isSome_map]
    rw [hsome]
    cases x <;> first | rfl | cases hsilent

/-- **Each thread has returned from the calls that it made**, but for the one that it is
in. -/
theorem Trace.countP_madeBy (htr : R.Trace h S) (hR : R.Empty) (θ : Fin t) :
    h.countP (Mark.madeBy θ) = h.countP (Mark.returnedBy θ) + (S.seat θ).isSome.toNat := by
  induction htr with
  | nil => simp [hR.seat]
  | snoc htr hx ih =>
    have hstep := hx.isSome_seat θ
    simp only [countP_snoc]
    omega

/-- A call is open from when it is made until it is decided. -/
theorem Step.total_open (hx : R.Step x S) :
    S.total Seat.open + x.decision?.isSome.toNat = R.total Seat.open + x.isMade.toNat := by
  cases hx.turn with
  | made θ c free _ hS => exact total_add_eq free hS rfl
  | decided hs hr _ hS =>
    refine total_add_eq hs hS ?_
    simp only [Seat.open, hr]
    rfl
  | returned hs _ hS => exact total_add_eq hs hS rfl
  | silent hsilent _ hs =>
    have htotal : S.total Seat.open = R.total Seat.open :=
      Finset.sum_congr rfl fun θ _ => Seat.open_congr (hs θ)
    rw [htotal]
    cases x <;> first | rfl | cases hsilent

/-- What was decided, with one mark more. -/
theorem length_decisions_snoc (h : List (Mark t)) (x : Mark t) :
    ((h ++ [x]).filterMap Mark.decision?).length =
      (h.filterMap Mark.decision?).length + x.decision?.isSome.toNat := by
  rw [List.filterMap_append, List.length_append]
  cases x <;> rfl

/-- **Made is decided or open.** -/
theorem Trace.made_eq (htr : R.Trace h S) (hR : R.Empty) :
    h.countP Mark.isMade = (h.filterMap Mark.decision?).length + S.total Seat.open := by
  induction htr with
  | nil => simp [hR.total (f := Seat.open) rfl]
  | snoc htr hx ih =>
    have hstep := hx.total_open
    rw [countP_snoc, length_decisions_snoc]
    omega

/-- Where nobody is in a call, the seats come to nothing. -/
theorem total_eq_zero (hS : ∀ θ, S.seat θ = none) {f : Option Seat → Nat} (hf : f none = 0) :
    S.total f = 0 :=
  Finset.sum_eq_zero fun θ _ => by rw [hS, hf]

/-- Where nobody is in a call, what was decided has returned. -/
theorem Trace.countP_returns (htr : R.Trace h S) (hR : R.Empty) (hS : ∀ θ, S.seat θ = none)
    (f : Call → Bool) (r : Reply) :
    h.countP (Mark.returns f r) =
      (h.filterMap Mark.decision?).countP fun d => f d.1 && d.2 = r := by
  have hdecided := htr.decided_eq hR f r
  rw [total_eq_zero hS rfl, Nat.add_zero] at hdecided
  rw [← hdecided, List.countP_filterMap]
  refine congrArg (h.countP ·) (funext fun x => ?_)
  cases x <;> rfl

/-- **What returns was decided.** -/
theorem Trace.mem_decisions (htr : R.Trace h S) (hR : R.Empty) {θ : Fin t} {c : Call} {r : Reply}
    (hx : .returned θ c r ∈ h) : (c, r) ∈ h.filterMap Mark.decision? := by
  have hdecided := htr.decided_eq hR (· = c) r
  have hreturned : 0 < h.countP (Mark.returns (· = c) r) :=
    List.countP_pos_iff.mpr ⟨_, hx, by simp [Mark.returns]⟩
  obtain ⟨y, hy, hdecides⟩ : ∃ y ∈ h, y.decides (· = c) r = true :=
    List.countP_pos_iff.mp (by omega)
  refine List.mem_filterMap.mpr ⟨y, hy, ?_⟩
  cases y with
  | decided η d s =>
    simp only [Mark.decides, Bool.and_eq_true, decide_eq_true_eq] at hdecides
    rw [Mark.decision?, hdecides.1, hdecides.2]
  | _ => cases hdecides

/-- Only a fault leaves a mark on the lock. -/
theorem Trace.poisoned_eq (htr : R.Trace h S)
    (hr : ∀ θ c r, .returned θ c r ∈ h → Reply.isFault r = false) : S.poisoned = R.poisoned := by
  induction htr with
  | nil => rfl
  | @snoc h x S T htr hx ih =>
    have hS := ih fun θ c r hx => hr θ c r (List.mem_append_left _ hx)
    cases hx with
    | @returned θ c i r hs =>
      rw [← hS]
      show (S.poisoned || Reply.isFault r) = S.poisoned
      rw [hr θ c r (List.mem_append_right _ (List.mem_singleton_self _)), Bool.or_false]
    | _ => exact hS

/-! ### One kind of call -/

variable {c : Call} {f : Latch → Latch} {reply : Latch → Reply}

theorem Empty.call_eq (hR : R.Empty) (θ : Fin t) (s : Seat) (hs : R.seat θ = some s) :
    s.call = c := by
  rw [hR.seat] at hs
  cases hs

/-- Where only one kind of call is made, nobody is in another one. -/
theorem Trace.call_eq (htr : R.Trace h S) (hR : ∀ θ s, R.seat θ = some s → s.call = c)
    (hmade : ∀ θ d, .made θ d ∈ h → d = c) : ∀ θ s, S.seat θ = some s → s.call = c := by
  induction htr with
  | nil => exact hR
  | @snoc h x S T htr hx ih =>
    have hS := ih fun θ d hd => hmade θ d (List.mem_append_left _ hd)
    -- who takes a seat takes it for that call
    have hput : ∀ {η : Fin t} {u : Option Seat}, T.seat = Function.update S.seat η u →
        (∀ s, u = some s → s.call = c) → ∀ θ s, T.seat θ = some s → s.call = c := by
      intro η u hT hu θ s hs
      rw [hT, Function.update_apply] at hs
      split at hs
      · exact hu s hs
      · exact hS θ s hs
    cases hx.turn with
    | made θ d _ _ hT =>
      refine hput hT ?_
      rintro s ⟨⟩
      exact hmade θ d (List.mem_append_right _ (List.mem_singleton_self _))
    | decided hs _ _ hT =>
      have hcall := hS _ _ hs
      refine hput hT ?_
      rintro s ⟨⟩
      exact hcall
    | returned _ _ hT => exact hput hT (by simp)
    | silent _ _ hout =>
      intro θ s hs
      obtain ⟨u, hu, houtline⟩ := exists_seat_of_outline (hout θ).symm hs
      rw [← hS θ u hu]
      exact (congrArg Prod.fst houtline).symm

/-- **The decisions on calls of one kind are the iteration**, and the latch is what it comes
to, whichever threads the calls are of. -/
theorem Trace.iterated (htr : R.Trace h S) (hR : R.Empty) {n : Nat}
    (hc : c.Iterates f reply R.latch n) (hn : h.countP Mark.isMade ≤ n)
    (hmade : ∀ θ d, .made θ d ∈ h → d = c) :
    ∃ k, h.filterMap Mark.decision? = (List.range k).map (fun j => (c, reply (f^[j] R.latch))) ∧
      S.latch = f^[k] R.latch := by
  induction htr with
  | nil => exact ⟨0, rfl, rfl⟩
  | @snoc h x S T htr hx ih =>
    rw [countP_snoc] at hn
    have hmade' : ∀ θ d, .made θ d ∈ h → d = c :=
      fun θ d hd => hmade θ d (List.mem_append_left _ hd)
    obtain ⟨k, hdecisions, hlatch⟩ := ih (by omega) hmade'
    have hskip : x.decision? = none → T.latch = S.latch →
        ∃ k, (h ++ [x]).filterMap Mark.decision? =
          (List.range k).map (fun j => (c, reply (f^[j] R.latch))) ∧ T.latch = f^[k] R.latch := by
      intro hd hl
      refine ⟨k, ?_, hl.trans hlatch⟩
      rw [List.filterMap_append, List.filterMap_cons_none hd, List.filterMap_nil, List.append_nil,
        hdecisions]
    cases hx.turn with
    | made _ _ _ hl _ => exact hskip rfl hl
    | returned _ hl _ => exact hskip rfl hl
    | silent hsilent hl _ =>
      cases x with
      | moved _ | woke _ | nothing => exact hskip rfl hl
      | _ => cases hsilent
    | @decided θ d i r _ hs _ hd _ =>
      obtain rfl : d = c := htr.call_eq hR.call_eq hmade' θ _ hs
      -- the call was open until now, so there are fewer decisions than calls
      have hlt : k < n := by
        have hopen := hx.total_open
        have hcount := htr.made_eq hR
        rw [hdecisions, List.length_map, List.length_range] at hcount
        simp only [Mark.decision?, Option.isSome_some, Bool.toNat_true, Mark.isMade,
          Bool.toNat_false] at hopen hn
        omega
      rw [hlatch] at hd
      obtain ⟨rfl, hl⟩ := hc k hlt _ _ _ _ hd
      refine ⟨k + 1, ?_, ?_⟩
      · rw [List.filterMap_append, hdecisions, List.range_succ, List.map_append]
        rfl
      · rw [hl, Function.iterate_succ_apply']

/-- **A stretch with one kind of call**, from where nobody is in a call to where nobody is: as
many calls are decided as are made. -/
theorem Trace.settled (htr : R.Trace h S) (hR : R.Empty) (hS : ∀ θ, S.seat θ = none)
    (hc : c.Iterates f reply R.latch (h.countP Mark.isMade))
    (hmade : ∀ θ d, .made θ d ∈ h → d = c) :
    h.filterMap Mark.decision? =
        (List.range (h.countP Mark.isMade)).map (fun j => (c, reply (f^[j] R.latch))) ∧
      S.latch = f^[h.countP Mark.isMade] R.latch := by
  obtain ⟨k, hdecisions, hlatch⟩ := htr.iterated hR hc (Nat.le_refl _) hmade
  have hcount := htr.made_eq hR
  rw [hdecisions, List.length_map, List.length_range, total_eq_zero hS rfl, Nat.add_zero] at hcount
  rw [hcount]
  exact ⟨hdecisions, hlatch⟩

/-- Where only one kind of call is made, a thread has made as many of that kind as of all. -/
theorem count_made (hmade : ∀ θ d, .made θ d ∈ h → d = c) (θ : Fin t) :
    h.count (.made θ c) = h.countP (Mark.madeBy θ) := by
  refine List.countP_congr fun x hx => ?_
  cases x with
  | made η d =>
    obtain rfl := hmade η d hx
    simp [Mark.madeBy]
  | _ => simp [Mark.madeBy]

/-- **Where one reply is given to all**, each thread gets it as often as it has called. -/
theorem Trace.count_returned (htr : R.Trace h S) (hR : R.Empty) (hS : ∀ θ, S.seat θ = none)
    {r : Reply} (hd : ∀ d ∈ h.filterMap Mark.decision?, d = (c, r))
    (hmade : ∀ θ d, .made θ d ∈ h → d = c) (θ : Fin t) :
    h.count (.returned θ c r) = h.count (.made θ c) := by
  have hreturned : h.count (.returned θ c r) = h.countP (Mark.returnedBy θ) := by
    refine List.countP_congr fun x hx => ?_
    cases x with
    | returned η d s =>
      obtain ⟨rfl, rfl⟩ := Prod.mk.inj (hd _ (htr.mem_decisions hR hx))
      simp [Mark.returnedBy]
    | _ => simp [Mark.returnedBy]
  rw [hreturned, count_made hmade, htr.countP_madeBy hR θ, hS θ]
  rfl

/-! ### Signals and tries -/

/-- **What comes of signals alone**: each of them returns, the latch is posted as often as there
were calls, and the lock keeps the mark that it had. -/
theorem Trace.signals (htr : R.Trace h S) (hR : R.Empty) (hS : ∀ θ, S.seat θ = none)
    (hb : R.latch.Balanced) (hroom : R.latch.stats.posts.toNat + h.countP Mark.isMade < 2 ^ 64)
    (hmade : ∀ θ d, .made θ d ∈ h → d = .signal) :
    (∀ θ, h.count (.returned θ .signal .done) = h.count (.made θ .signal)) ∧
      S.latch = Latch.posted^[h.countP Mark.isMade] R.latch ∧ S.poisoned = R.poisoned := by
  obtain ⟨hdecisions, hlatch⟩ := htr.settled hR hS (Call.iterates_signal hb hroom) hmade
  have hall : ∀ d ∈ h.filterMap Mark.decision?, d = (.signal, .done) := by
    rw [hdecisions]
    simp
  refine ⟨htr.count_returned hR hS hall hmade, hlatch, htr.poisoned_eq fun θ c r hx => ?_⟩
  obtain ⟨-, rfl⟩ := Prod.mk.inj (hall _ (htr.mem_decisions hR hx))
  rfl

/-- The answers of tries: only the first one may have found a signal. -/
theorem countP_tries (l : Latch) (k : Nat) (b : Bool) :
    List.countP (fun d => d.1 = .tryWait && d.2 = .flag b)
        ((List.range (k + 1)).map fun j =>
          (Call.tryWait, Reply.flag (Latch.tried^[j] l).signaled)) =
      (l.signaled == b).toNat + if b then 0 else k := by
  rw [List.range_succ_eq_map, List.map_cons, List.map_map, List.countP_cons]
  have hrest : ((fun j => (Call.tryWait, Reply.flag (Latch.tried^[j] l).signaled)) ∘ Nat.succ) =
      fun _ => (Call.tryWait, Reply.flag false) := by
    funext j
    rw [Function.comp_apply, Nat.succ_eq_add_one, Latch.tried_iterate_succ, Latch.signaled_tried]
  rw [hrest, List.map_const', List.countP_replicate]
  cases b <;> cases hs : l.signaled <;> simp [hs, Nat.add_comm]

/-- **What comes of tries alone**, if there is any: one of them finds the signal if there was
one, all others find nothing, and the lock keeps the mark that it had. -/
theorem Trace.tries (htr : R.Trace h S) (hR : R.Empty) (hS : ∀ θ, S.seat θ = none)
    (hmade : ∀ θ d, .made θ d ∈ h → d = .tryWait) (hk : 0 < h.countP Mark.isMade) :
    h.countP (Mark.returns (· = .tryWait) (.flag true)) = R.latch.signaled.toNat ∧
      h.countP (Mark.returns (· = .tryWait) (.flag false)) =
        h.countP Mark.isMade - R.latch.signaled.toNat ∧
      S.latch = R.latch.tried ∧ S.poisoned = R.poisoned := by
  obtain ⟨hdecisions, hlatch⟩ := htr.settled hR hS Call.iterates_tryWait hmade
  have hreturns := htr.countP_returns hR hS (· = .tryWait)
  have hpoisoned : S.poisoned = R.poisoned := htr.poisoned_eq fun θ c r hx => by
    have hd := htr.mem_decisions hR hx
    rw [hdecisions] at hd
    obtain ⟨j, -, hj⟩ := List.mem_map.mp hd
    cases hj
    rfl
  obtain ⟨k, hk⟩ := Nat.exists_eq_succ_of_ne_zero hk.ne'
  rw [hk] at hdecisions hlatch ⊢
  rw [hreturns, hreturns, hdecisions, countP_tries, countP_tries]
  refine ⟨?_, ?_, ?_, hpoisoned⟩
  · cases R.latch.signaled <;> rfl
  · cases R.latch.signaled <;> simp
    omega
  · rw [hlatch, Latch.tried_iterate_succ]

end Room

/-! ### Stretches of a run -/

namespace Machine

variable {σ : Type} {t m g : Nat} {p : Program σ m g} {μ κ ν : Machine σ t m g} {e : Fin m}
  {bs : List (Action t)} {op : Route → Address → Entry} {table : Vector Address m} {c : Call}

/-- Nobody is in a call on the event. -/
def Vacant (μ : Machine σ t m g) (e : Fin m) : Prop := ∀ θ, μ.isAt e θ = false

instance (μ : Machine σ t m g) (e : Fin m) : Decidable (μ.Vacant e) :=
  inferInstanceAs (Decidable (∀ θ, μ.isAt e θ = false))

theorem Vacant.seat (h : μ.Vacant e) (θ : Fin t) : (μ.room e).seat θ = none := by
  have hθ := h θ
  rwa [isAt, Option.isSome_eq_false_iff, Option.isNone_iff_eq_none] at hθ

theorem Vacant.empty (h : μ.Vacant e) (ho : (μ.room e).Orderly) : (μ.room e).Empty where
  seat := h.seat
  holder := by
    rcases hθ : (μ.room e).holder with _ | θ
    · rfl
    · obtain ⟨s, hs⟩ := ho.seated hθ
      rw [h.seat] at hs
      cases hs

/-- At rest, an event on which there are only calls that do not sleep is vacant. -/
theorem Quiet.vacant (h : μ.Quiet e) (ho : (μ.room e).Orderly)
    (hcalls : ∀ θ s, (μ.room e).seat θ = some s → s.call.waits = false) : μ.Vacant e := by
  intro θ
  rw [isAt, Option.isSome_eq_false_iff, Option.isNone_iff_eq_none]
  rcases hs : (μ.status θ).seat e with _ | s
  · rfl
  · obtain ⟨⟨b, hb⟩, -⟩ := Room.Quiet.asleep h hs
    have hwaits := (ho.fits hs).waits (by rw [hb]; rfl)
    cases hwaits.symm.trans (hcalls θ s hs)

/-- **A stretch of a run in which the event sees one operation only**, in any number of threads
and through any of the ways to hold it. -/
structure Stretch (p : Program σ m g) (op : Route → Address → Entry) (table : Vector Address m)
    (e : Fin m) (κ : Machine σ t m g) (bs : List (Action t)) (ν : Machine σ t m g) : Prop where
  /-- It goes from here to there. -/
  run : κ.steps p bs = some ν
  /-- Whatever is called on the event is called by that operation. -/
  made {θ : Fin t} {c : Call} : .made θ c ∈ κ.history p e bs →
    ∃ r : Route, request? (g := g) table (op r (table.get e)) = some (.call e c)

/-- If the operation comes to one call, this is the one that is made. -/
theorem stretch_iff (hdistinct : table.toList.Nodup) (hop : ∀ r a, op r a = .call a c) :
    κ.Stretch p op table e bs ν ↔
      κ.steps p bs = some ν ∧ ∀ θ d, .made θ d ∈ κ.history p e bs → d = c := by
  refine ⟨fun h => ⟨h.run, fun θ d hd => ?_⟩, fun ⟨hrun, hmade⟩ => ⟨hrun, fun {θ d} hd => ?_⟩⟩
  · obtain ⟨r, hr⟩ := h.made hd
    rw [hop, request?_call hdistinct] at hr
    exact (Request.call.inj (Option.some.inj hr)).2.symm
  · obtain rfl := hmade θ d hd
    exact ⟨.handle, by rw [hop, request?_call hdistinct]⟩

/-- A thread that goes on makes no call. -/
theorem isMade_mark {a : Action t} (h : a.goesOn = true) : (mark e μ ν a).isMade = false := by
  cases a with
  | start _ | wake _ | tick _ => cases h
  | work θ sinkFails =>
    simp only [mark]
    split
    · next s _ =>
      obtain ⟨c, i, stage⟩ := s
      cases stage <;> rfl
    · rfl
  | _ =>
    simp only [mark]
    split <;> rfl

theorem isMade_history (h : ∀ a ∈ bs, a.goesOn = true) :
    ∀ x ∈ κ.history p e bs, x.isMade = false := by
  induction bs generalizing κ with
  | nil => simp [history]
  | cons a bs ih =>
    intro x hx
    rw [history] at hx
    split at hx
    · cases hx
    · rcases List.mem_cons.mp hx with rfl | hx
      · exact isMade_mark (h a List.mem_cons_self)
      · exact ih (fun b hb => h b (List.mem_cons_of_mem _ hb)) x hx

/-- **The stretch can be brought to its end**: its threads can go on with their calls until
nobody is in a call on the event, and they make no further call on it. -/
def Completes (p : Program σ m g) (op : Route → Address → Entry) (table : Vector Address m)
    (e : Fin m) (κ : Machine σ t m g) (bs : List (Action t)) : Prop :=
  ∃ cs ξ, (∀ a ∈ cs, a.goesOn = true) ∧ κ.Stretch p op table e (bs ++ cs) ξ ∧
    (∀ θ d, (κ.history p e (bs ++ cs)).count (.made θ d) =
      (κ.history p e bs).count (.made θ d)) ∧ ξ.Vacant e

/-- **Calls that do not sleep come to their end.** -/
theorem Stretch.completes (h : κ.Stretch p op table e bs ν)
    (hdistinct : table.toList.Nodup) (hop : ∀ r a, op r a = .call a c) (hc : c.waits = false)
    (hb : (κ.monitor e).latch.Balanced) (ho : (κ.room e).Orderly) (hκ : κ.Vacant e) :
    κ.Completes p op table e bs := by
  have htr := trace_of_steps (e := e) hb h.run
  obtain ⟨cs, ξ, hrun, hgoes, -, hquiet⟩ :=
    exists_quiet (p := p) (htr.orderly ho) (htr.balanced hb)
  have hsilent : ∀ {θ d}, .made θ d ∉ ν.history p e cs := fun hx => by
    cases isMade_history hgoes _ hx
  have hhistory : κ.history p e (bs ++ cs) = κ.history p e bs ++ ν.history p e cs :=
    history_append h.run
  have hstretch : κ.Stretch p op table e (bs ++ cs) ξ := by
    refine ⟨(steps_append_of_steps h.run).trans hrun, fun hx => ?_⟩
    rw [hhistory, List.mem_append] at hx
    exact h.made (hx.resolve_right hsilent)
  refine ⟨cs, ξ, hgoes, hstretch, fun θ d => ?_, ?_⟩
  · rw [hhistory, List.count_append, List.count_eq_zero_of_not_mem hsilent, Nat.add_zero]
  · have htr' := trace_of_steps (e := e) hb hstretch.run
    refine hquiet.vacant (htr'.orderly ho) fun θ s hs => ?_
    have hempty := hκ.empty ho
    rw [htr'.call_eq hempty.call_eq ((stretch_iff hdistinct hop).mp hstretch).2 θ s hs]
    exact hc

/-- The monitor of a vacant event is free, and is known by its latch and by its mark. -/
theorem Vacant.monitor_eq (hκ : κ.Vacant e) (hν : ν.Vacant e) (ho : (κ.room e).Orderly)
    (ho' : (ν.room e).Orderly) {l : Latch} (hl : (ν.room e).latch = l)
    (hp : (ν.room e).poisoned = (κ.room e).poisoned) :
    ν.monitor e = { κ.monitor e with latch := l } := by
  have hholder : (ν.monitor e).holder = (κ.monitor e).holder :=
    (hν.empty ho').holder.trans (hκ.empty ho).holder.symm
  have hpoisoned : (ν.monitor e).poisoned = (κ.monitor e).poisoned := hp
  have hlatch : (ν.monitor e).latch = l := hl
  show ν.monitor e = ⟨l, (κ.monitor e).holder, (κ.monitor e).poisoned⟩
  rw [← hholder, ← hpoisoned, ← hlatch]

/-- **A burst of signals does not depend on its order.** From any state that the threads can
reach in which nobody is in a call on an event, threads signal the event, thread `θ` as often
as `n θ` says, and through any of the ways to hold an event; the counter has room for all of
the signals. However they interleave,

* the burst can be brought to its end, where all of its calls have returned;
* there every call was answered, and the event is the one before the burst with its latch
  posted as often as there were calls: it is set if it was or if there were any, all signals
  are counted, and all are absorbed but for one on an empty slot;
* of any `k` tries that follow, by whichever threads and in whatever order, one finds a signal
  if the event was set, and all others find none; they too can be brought to their end. -/
theorem burst_order_independent (hdistinct : table.toList.Nodup) (hμ : μ.Initial)
    (hreach : Reaches p μ κ) (hκ : κ.Vacant e) (hs : κ.Stretch p Route.signal table e bs ν)
    {n : Fin t → Nat} (hn : ∀ θ, (κ.history p e bs).count (.made θ .signal) = n θ)
    (hroom : (κ.monitor e).latch.stats.posts.toNat + ∑ θ, n θ < 2 ^ 64) :
    κ.Completes p Route.signal table e bs ∧
    (ν.Vacant e →
      (∀ θ, (κ.history p e bs).count (.returned θ .signal .done) = n θ) ∧
      ν.monitor e =
        { κ.monitor e with latch := Latch.posted^[∑ θ, n θ] (κ.monitor e).latch } ∧
      (κ.monitor e).latch.Absorbs (∑ θ, n θ) (ν.monitor e).latch ∧
      ∀ cs ξ, ν.Stretch p Route.tryWait table e cs ξ →
        ν.Completes p Route.tryWait table e cs ∧
        (ξ.Vacant e → ∀ k, (ν.history p e cs).countP Mark.isMade = k → 0 < k →
          (ν.history p e cs).countP (Mark.returns (· = .tryWait) (.flag true)) =
            (ν.monitor e).latch.signaled.toNat ∧
          (ν.history p e cs).countP (Mark.returns (· = .tryWait) (.flag false)) =
            k - (ν.monitor e).latch.signaled.toNat ∧
          ξ.monitor e = { ν.monitor e with latch := (ν.monitor e).latch.tried } ∧
          (ξ.monitor e).latch.signaled = false ∧
          (ξ.monitor e).latch.stats.consumed.toNat =
            (ν.monitor e).latch.stats.consumed.toNat + (ν.monitor e).latch.signaled.toNat)) := by
  obtain ⟨as, has⟩ := hreach
  have hb : (κ.monitor e).latch.Balanced := hμ.balanced_of_steps has e
  have ho : (κ.room e).Orderly := hμ.orderly has e
  have htr := trace_of_steps (e := e) hb hs.run
  have hb' : (ν.monitor e).latch.Balanced := htr.balanced hb
  have ho' : (ν.room e).Orderly := htr.orderly ho
  have hmade := ((stretch_iff hdistinct Route.signal_eq).mp hs).2
  have hcalls : (κ.history p e bs).countP Mark.isMade = ∑ θ, n θ := by
    rw [← Mark.sum_countP_madeBy]
    exact Finset.sum_congr rfl fun θ _ => (Room.count_made hmade θ).symm.trans (hn θ)
  refine ⟨hs.completes hdistinct Route.signal_eq rfl hb ho hκ, fun hν => ?_⟩
  rw [← hcalls] at hroom ⊢
  obtain ⟨hreturned, hlatch, hpoisoned⟩ := htr.signals (hκ.empty ho) hν.seat hb hroom hmade
  have hmonitor := hκ.monitor_eq hν ho ho' hlatch hpoisoned
  refine ⟨fun θ => (hreturned θ).trans (hn θ), hmonitor, ?_, fun cs ξ hs' =>
    ⟨hs'.completes hdistinct Route.tryWait_eq rfl hb' ho' hν, ?_⟩⟩
  · rw [hmonitor]
    exact (hb.absorbs_iterate hroom).2
  · rintro hξ k rfl hk
    have htr' := trace_of_steps (e := e) hb' hs'.run
    obtain ⟨htrue, hfalse, hlatch', hpoisoned'⟩ := htr'.tries (hν.empty ho') hξ.seat
      ((stretch_iff hdistinct Route.tryWait_eq).mp hs').2 hk
    have hmonitor' := hν.monitor_eq hξ ho' (htr'.orderly ho') hlatch' hpoisoned'
    refine ⟨htrue, hfalse, hmonitor', ?_, ?_⟩
    · rw [hmonitor']
      exact Latch.signaled_tried _
    · rw [hmonitor']
      exact hb'.stats_tried.1

/-- One thread waits for no time at all, signals twice and tries; another one signals once and
tries. -/
def crowd (e : Fin m) : Machine (Tape m 0) 2 m 0 :=
  ofTapes 0 (.replicate m .fresh)
    [[.call e (.waitTimeout .zero), .call e .signal, .call e .signal, .call e .tryWait],
      [.call e .signal, .call e .tryWait]]
    .zero

/-- The wait runs out. -/
def crowdBefore (θ : Fin t) : List (Action t) :=
  [.start θ, .acquire θ, .work θ false, .leave θ]

/-- The second thread makes its call last and gets the lock first. -/
def crowdBurst (θ η : Fin t) : List (Action t) :=
  [.start θ, .start η, .acquire η, .work η false, .notify η none, .leave η,
    .acquire θ, .work θ false, .notify θ none, .leave θ,
    .start θ, .acquire θ, .work θ false, .notify θ none, .leave θ]

/-- The first thread makes its try first and gets the lock last. -/
def crowdTries (θ η : Fin t) : List (Action t) :=
  [.start θ, .start η, .acquire η, .work η false, .leave η, .acquire θ, .work θ false, .leave θ]

/-- Three signals leave one on the slot and absorb two; of the two tries that follow the one
that gets the lock first takes it. -/
theorem burst_order_independent_crowd :
    ∃ κ ν ξ, (crowd (1 : Fin 2)).steps Tape.program (crowdBefore 0) = some κ ∧
      κ.Stretch Tape.program Route.signal twoPlaces 1 (crowdBurst 0 1) ν ∧
      ν.Stretch Tape.program Route.tryWait twoPlaces 1 (crowdTries 0 1) ξ ∧
      (κ.monitor 1).latch.Absorbs 3 (ν.monitor 1).latch ∧
      (ν.history Tape.program 1 (crowdTries 0 1)).countP
        (Mark.returns (· = .tryWait) (.flag true)) = 1 ∧
      (ν.history Tape.program 1 (crowdTries 0 1)).countP
        (Mark.returns (· = .tryWait) (.flag false)) = 1 := by
  have hdistinct : twoPlaces.toList.Nodup := by decide
  have hμ : (crowd (1 : Fin 2)).Initial := initial_ofTapes ..
  obtain ⟨κ, hκ⟩ : ∃ κ, (crowd (1 : Fin 2)).steps Tape.program (crowdBefore 0) = some κ :=
    Option.isSome_iff_exists.mp (by decide +kernel)
  obtain ⟨hvacant, hcount, hposts, hmade, hsome⟩ := of_decide_eq_true (of_steps
    (f := fun κ => decide (κ.Vacant 1 ∧
      (∀ θ, (κ.history Tape.program 1 (crowdBurst 0 1)).count (.made θ .signal) = ![2, 1] θ) ∧
      (κ.monitor 1).latch.stats.posts.toNat = 0 ∧
      (κ.history Tape.program 1 (crowdBurst 0 1)).all (Mark.makesOnly .signal) = true ∧
      (κ.steps Tape.program (crowdBurst 0 1)).isSome = true)) (by decide +kernel) hκ)
  obtain ⟨ν, hν⟩ := Option.isSome_iff_exists.mp hsome
  have hsignals := (stretch_iff hdistinct Route.signal_eq).mpr
    ⟨hν, Mark.all_makesOnly_iff.mp hmade⟩
  have hrun : (crowd (1 : Fin 2)).steps Tape.program (crowdBefore 0 ++ crowdBurst 0 1) = some ν :=
    (steps_append_of_steps hκ).trans hν
  obtain ⟨hvacant', hcount', hsignaled, hmade', hsome'⟩ := of_decide_eq_true (of_steps
    (f := fun ν => decide (ν.Vacant 1 ∧
      (ν.history Tape.program 1 (crowdTries 0 1)).countP Mark.isMade = 2 ∧
      (ν.monitor 1).latch.signaled = true ∧
      (ν.history Tape.program 1 (crowdTries 0 1)).all (Mark.makesOnly .tryWait) = true ∧
      (ν.steps Tape.program (crowdTries 0 1)).isSome = true)) (by decide +kernel) hrun)
  obtain ⟨ξ, hξ⟩ := Option.isSome_iff_exists.mp hsome'
  have htries := (stretch_iff hdistinct Route.tryWait_eq).mpr
    ⟨hξ, Mark.all_makesOnly_iff.mp hmade'⟩
  have hvacant'' : ξ.Vacant 1 := of_decide_eq_true (of_steps (f := fun ξ => decide (ξ.Vacant 1))
    (by decide +kernel) ((steps_append_of_steps hrun).trans hξ))
  have hsum : ∑ θ : Fin 2, ![2, 1] θ = 3 := by decide
  obtain ⟨-, hend⟩ := burst_order_independent hdistinct hμ ⟨_, hκ⟩ hvacant hsignals hcount (by
    rw [hposts, hsum]
    decide)
  obtain ⟨-, -, habsorbs, hfollow⟩ := hend hvacant'
  obtain ⟨-, hanswers⟩ := hfollow _ _ htries
  obtain ⟨htrue, hfalse, -⟩ := hanswers hvacant'' 2 hcount' (by decide)
  rw [hsum] at habsorbs
  rw [hsignaled] at htrue hfalse
  exact ⟨κ, ν, ξ, hκ, hsignals, htries, habsorbs, htrue, hfalse⟩

end Machine

end Threads

end AutoReset
