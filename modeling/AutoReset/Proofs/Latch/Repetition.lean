import AutoReset.Proofs.Latch.History
/-!
# A word over and over

All that a word has to know of the latch on which it is run is the flag. The flag settles the
results of its letters (`AutoReset.Letter.results`), the results settle by how much each counter
goes up (`AutoReset.Letter.gain`), and the flag at the end is settled too
(`AutoReset.Letter.flagAfter`). So two rounds of a word that start from the same flag are alike
in everything but the counters that they start from.

A round forgets the flag from which it started, unless nothing in it is a post or a take
(`AutoReset.Letter.flagAfter_cases`); in either case a second round ends with the flag with
which it began. So from the second round on all rounds are alike, and what `n` rounds come to is
the first round and `n - 1` times the second one (`AutoReset.Latch.repetition_affine`).
-/

namespace AutoReset

/-- Which of the four counters. -/
inductive Stats.Kind where
  /-- Signals received. -/
  | posts
  /-- Signals that found one already pending. -/
  | coalesced
  /-- Waits that consumed a signal. -/
  | consumed
  /-- Bounded waits that ran out. -/
  | timeouts
  deriving DecidableEq

/-- What a counter has come to. -/
def Stats.value (s : Stats) : Kind → Nat
  | .posts => s.posts.toNat
  | .coalesced => s.coalesced.toNat
  | .consumed => s.consumed.toNat
  | .timeouts => s.timeouts.toNat

/-- Does the counter go up at a letter with this result? -/
def Stats.Kind.counts : Kind → Letter × Bool → Bool
  | posts, (a, _) => a = .post
  | coalesced, (a, r) => a = .post && !r
  | consumed, (a, r) => a = .take && r
  | timeouts, (a, _) => a = .recordTimeout

/-! ### What the flag settles -/

namespace Letter

/-- The flag after a letter. -/
def turn (f : Bool) : Letter → Bool
  | post => true
  | take => false
  | recordTimeout => f

/-- The result of a letter. -/
def answer (f : Bool) : Letter → Bool
  | post => !f
  | take => f
  | recordTimeout => false

/-- The flag after a word. -/
def flagAfter (f : Bool) : List Letter → Bool
  | [] => f
  | a :: w => flagAfter (a.turn f) w

/-- The results of a word. -/
def results (f : Bool) : List Letter → List Bool
  | [] => []
  | a :: w => a.answer f :: results (a.turn f) w

/-- By how much a counter goes up over a word with these results. -/
def gain (w : List Letter) (rs : List Bool) (k : Stats.Kind) : Nat := (w.zip rs).countP k.counts

variable {f : Bool} {w : List Letter}

/-- **A word forgets the flag from which it starts, or leaves it alone.** -/
theorem flagAfter_cases (w : List Letter) :
    (∀ f g, flagAfter f w = flagAfter g w) ∨ ∀ f, flagAfter f w = f := by
  induction w with
  | nil => exact Or.inr fun _ => rfl
  | cons a w ih =>
    cases a with
    | post => exact Or.inl fun _ _ => rfl
    | take => exact Or.inl fun _ _ => rfl
    | recordTimeout => exact ih

/-- **A second round ends with the flag with which it began.** -/
theorem flagAfter_flagAfter (f : Bool) (w : List Letter) :
    flagAfter (flagAfter f w) w = flagAfter f w := by
  rcases flagAfter_cases w with hforgets | hkeeps
  · exact hforgets _ _
  · exact hkeeps _

theorem gain_cons (a : Letter) (r : Bool) (w : List Letter) (rs : List Bool) (k : Stats.Kind) :
    gain (a :: w) (r :: rs) k = (k.counts (a, r)).toNat + gain w rs k := by
  rw [gain, List.zip_cons_cons, List.countP_cons, gain, Nat.add_comm]
  cases k.counts (a, r) <;> rfl

/-- Every post is counted as one, whatever comes of it, and so is every timeout. -/
theorem gain_results (f : Bool) (w : List Letter) :
    gain w (results f w) .posts = w.count .post ∧
      gain w (results f w) .timeouts = w.count .recordTimeout := by
  induction w generalizing f with
  | nil => exact ⟨rfl, rfl⟩
  | cons a w ih =>
    obtain ⟨hposts, htimeouts⟩ := ih (a.turn f)
    rw [results, gain_cons, gain_cons, hposts, htimeouts]
    cases a <;> simp [Stats.Kind.counts, Nat.add_comm]

/-- **Signals are conserved in a word**: those that it put into the slot, with the one that was
there, are those that it took out, with the one that is left. -/
theorem count_successful (f : Bool) (w : List Letter) :
    (Latch.successful w (results f w)).count .post + f.toNat =
      (Latch.successful w (results f w)).count .take + (flagAfter f w).toNat := by
  induction w generalizing f with
  | nil => rfl
  | cons a w ih =>
    have hrest := ih (a.turn f)
    have hcons : Latch.successful (a :: w) (results f (a :: w)) =
        (if a.answer f then [a] else []) ++ Latch.successful w (results (a.turn f) w) := by
      rw [results, Latch.successful, Latch.successful, List.zip_cons_cons, List.filter_cons]
      cases a.answer f <;> rfl
    rw [hcons, List.count_append, List.count_append, flagAfter]
    cases a <;> cases f <;> simp [answer, turn] at hrest ⊢ <;> omega

end Letter

namespace Latch

open Letter

variable {l l' : Latch} {w : List Letter} {rs : List Bool} {n : Nat}

/-! ### One letter -/

/-- The result of a letter is settled by the flag. -/
theorem result_eq (l : Latch) (a : Letter) : a.result l = a.answer l.signaled := by
  cases a <;> rfl

theorem signaled_next (l : Latch) (a : Letter) : (a.next l).signaled = a.turn l.signaled := by
  cases a with
  | take => cases hs : l.signaled <;> simp [next, turn, hs]
  | _ => rfl

theorem Balanced.next (hb : l.Balanced) {a : Letter} (hfull : a.isFull l = false) :
    (a.next l).Balanced := by
  have hafter := balanced_after hb a
  rwa [after_act hb, hfull] at hafter

/-- **A letter moves the counters that it should move**, and no others. -/
theorem value_next (hb : l.Balanced) {a : Letter} (hfull : a.isFull l = false)
    (k : Stats.Kind) : (a.next l).stats.value k =
      l.stats.value k + (k.counts (a, a.answer l.signaled)).toNat := by
  cases a with
  | post =>
    have hp : l.stats.posts ≠ Counter.last := of_decide_eq_false hfull
    have hposts := Counter.toNat_succ hp
    have hcoalesced := Counter.toNat_succ (hb.coalesced_ne_last hp)
    cases k <;> cases hs : l.signaled <;>
      simp [Stats.value, Stats.Kind.counts, Letter.next, posted, answer, hs, hposts, hcoalesced]
  | take =>
    cases hs : l.signaled with
    | true =>
      have hconsumed := Counter.toNat_succ (hb.consumed_ne_last hs)
      cases k <;>
        simp [Stats.value, Stats.Kind.counts, Letter.next, taken, answer, hs, hconsumed]
    | false => cases k <;> simp [Stats.value, Stats.Kind.counts, Letter.next, answer, hs]
  | recordTimeout =>
    have htimeouts := Counter.toNat_succ (of_decide_eq_false hfull)
    cases k <;> simp [Stats.value, Stats.Kind.counts, Letter.next, expired, htimeouts]

/-! ### The room for a word -/

/-- Is there room to count all posts and timeouts of `n` rounds? -/
def HasRoom (l : Latch) (w : List Letter) (n : Nat) : Prop :=
  l.stats.value .posts + n * w.count .post < 2 ^ 64 ∧
    l.stats.value .timeouts + n * w.count .recordTimeout < 2 ^ 64

instance (l : Latch) (w : List Letter) (n : Nat) : Decidable (l.HasRoom w n) :=
  inferInstanceAs (Decidable (_ ∧ _))

theorem HasRoom.of_le (h : l.HasRoom w n) {m : Nat} (hm : m ≤ n) : l.HasRoom w m :=
  ⟨Nat.lt_of_le_of_lt (Nat.add_le_add_left (Nat.mul_le_mul_right _ hm) _) h.1,
    Nat.lt_of_le_of_lt (Nat.add_le_add_left (Nat.mul_le_mul_right _ hm) _) h.2⟩

/-- **Rounds take the room that they need**, and leave the rest. -/
theorem hasRoom_add {m : Nat}
    (hp : l'.stats.value .posts = l.stats.value .posts + n * w.count .post)
    (ht : l'.stats.value .timeouts = l.stats.value .timeouts + n * w.count .recordTimeout) :
    l.HasRoom w (n + m) ↔ l'.HasRoom w m := by
  unfold HasRoom
  rw [hp, ht, Nat.add_mul, Nat.add_mul, Nat.add_assoc, Nat.add_assoc]

theorem hasRoom_zero (l : Latch) (w : List Letter) : l.HasRoom w 0 := by
  unfold HasRoom
  rw [Nat.zero_mul, Nat.zero_mul]
  exact ⟨l.stats.posts.toNat_lt, l.stats.timeouts.toNat_lt⟩

/-! ### One round -/

/-- **What a word did to a latch** on which it ran to its end. -/
structure Ran (w : List Letter) (l : Latch) (rs : List Bool) (l' : Latch) : Prop where
  /-- It ran. -/
  run : run w l = .ok rs l'
  /-- The results are those that the flag settles. -/
  settled : rs = results l.signaled w
  /-- So is the flag at the end. -/
  signaled : l'.signaled = flagAfter l.signaled w
  /-- The counters went up as the results say. -/
  value (k : Stats.Kind) : l'.stats.value k = l.stats.value k + gain w rs k
  /-- The balance was kept. -/
  balanced : l'.Balanced

/-- **A word that runs to its end does what the flag settles.** -/
theorem ran_of_run (hb : l.Balanced) (h : Latch.run w l = .ok rs l') : Ran w l rs l' := by
  induction w generalizing l rs with
  | nil =>
    cases h
    exact ⟨rfl, rfl, rfl, fun _ => rfl, hb⟩
  | cons a w ih =>
    obtain ⟨r, l₁, hact, hrest⟩ := Attempt.exists_of_bind h
    obtain ⟨rs', l₂, hrun, hpure⟩ := Attempt.exists_of_bind hrest
    cases hpure
    rw [act_eq hb] at hact
    cases hfull : a.isFull l with
    | true => simp [hfull] at hact
    | false =>
      rw [hfull] at hact
      cases hact
      obtain ⟨-, hresults, hsignaled, hvalue, hb'⟩ := ih (hb.next hfull) hrun
      rw [signaled_next] at hresults hsignaled
      refine ⟨h, ?_, hsignaled, fun k => ?_, hb'⟩
      · rw [hresults, result_eq]
        rfl
      · rw [hvalue, value_next hb hfull, gain_cons, result_eq, Nat.add_assoc]

/-- **With room for it, a word runs to its end.** -/
theorem exists_ran (hb : l.Balanced) (hroom : l.HasRoom w 1) : ∃ rs l', Ran w l rs l' := by
  suffices h : ∃ rs l', Latch.run w l = .ok rs l' by
    obtain ⟨rs, l', hrun⟩ := h
    exact ⟨rs, l', ran_of_run hb hrun⟩
  induction w generalizing l with
  | nil => exact ⟨[], l, rfl⟩
  | cons a w ih =>
    obtain ⟨hp, ht⟩ := hroom
    rw [Nat.one_mul] at hp ht
    have hfull : a.isFull l = false := by
      cases a with
      | post =>
        rw [List.count_cons_self] at hp
        exact decide_eq_false (Counter.ne_last_iff.mpr (by simp only [Stats.value] at hp; omega))
      | take => rfl
      | recordTimeout =>
        rw [List.count_cons_self] at ht
        exact decide_eq_false (Counter.ne_last_iff.mpr (by simp only [Stats.value] at ht; omega))
    have hroom' : (a.next l).HasRoom w 1 := by
      unfold HasRoom
      rw [value_next hb hfull, value_next hb hfull]
      rw [List.count_cons] at hp ht
      cases a <;> simp [Stats.Kind.counts] at hp ht ⊢ <;> omega
    obtain ⟨rs, l', hrun⟩ := ih (hb.next hfull) hroom'
    refine ⟨a.result l :: rs, l', ?_⟩
    rw [run, Attempt.bind_apply, act_eq hb, hfull]
    simp only [Bool.false_eq_true, if_false, Attempt.bind_apply, hrun]
    rfl

namespace Ran

/-- One round counts its posts and its timeouts. -/
theorem hasRoom_iff (h : Ran w l rs l') : l.HasRoom w (1 + n) ↔ l'.HasRoom w n := by
  refine hasRoom_add ?_ ?_
  · rw [h.value, h.settled, (gain_results _ w).1, Nat.one_mul]
  · rw [h.value, h.settled, (gain_results _ w).2, Nat.one_mul]

/-- A round, and then the others. -/
theorem repeatFrom_succ (h : Ran w l rs l') (sum : Nat) :
    repeatFrom w (n + 1) sum l = repeatFrom w n (sum + rs.count true) l' := by
  have hsuccesses : successes w l = .ok (rs.count true) l' := by
    simp only [successes, Attempt.bind_apply, h.run]
    rfl
  simp only [repeatFrom, Attempt.bind_apply, hsuccesses]

end Ran

/-! ### Many rounds -/

/-- **Rounds that all ran to their end had room.** -/
theorem hasRoom_of_repeatFrom (hb : l.Balanced) {sum s : Nat}
    (h : repeatFrom w n sum l = .ok s l') : l.HasRoom w n := by
  induction n generalizing l sum with
  | zero => exact hasRoom_zero l w
  | succ n ih =>
    obtain ⟨k, l₁, hround, hrest⟩ := Attempt.exists_of_bind h
    obtain ⟨rs, l₂, hrun, hpure⟩ := Attempt.exists_of_bind hround
    cases hpure
    have hran := ran_of_run hb hrun
    rw [Nat.add_comm]
    exact hran.hasRoom_iff.mpr (ih hran.balanced hrest)

/-- **What `n` rounds that are all alike did to a latch**: they had the results `rs` each. -/
structure Repeated (w : List Letter) (n : Nat) (rs : List Bool) (l l' : Latch) : Prop where
  /-- The flag is as before. -/
  signaled : l'.signaled = l.signaled
  /-- The counters went up as the results say, in each round. -/
  value (k : Stats.Kind) : l'.stats.value k = l.stats.value k + n * gain w rs k
  /-- The balance was kept. -/
  balanced : l'.Balanced

/-- **Rounds that end with the flag with which they begin are all alike.** -/
theorem exists_repeated (hb : l.Balanced) (hflag : flagAfter l.signaled w = l.signaled)
    (hroom : l.HasRoom w n) (sum : Nat) :
    ∃ l', repeatFrom w n sum l = .ok (sum + n * (results l.signaled w).count true) l' ∧
      Repeated w n (results l.signaled w) l l' := by
  induction n generalizing l sum with
  | zero =>
    refine ⟨l, ?_, rfl, fun k => ?_, hb⟩
    · rw [Nat.zero_mul]
      rfl
    · rw [Nat.zero_mul]
      rfl
  | succ n ih =>
    obtain ⟨rs, l₁, hran⟩ := exists_ran hb (hroom.of_le (Nat.le_add_left 1 n))
    have hsame : l₁.signaled = l.signaled := hran.signaled.trans hflag
    rw [Nat.add_comm] at hroom
    obtain ⟨l', hrest, hrepeated⟩ :=
      ih hran.balanced (hsame ▸ hflag) (hran.hasRoom_iff.mp hroom) (sum + rs.count true)
    rw [hsame, ← hran.settled] at hrest hrepeated
    rw [← hran.settled]
    refine ⟨l', ?_, hrepeated.signaled.trans hsame, fun k => ?_, hrepeated.balanced⟩
    · rw [hran.repeatFrom_succ, hrest, Nat.succ_mul, Nat.add_comm (n * _), Nat.add_assoc]
    · rw [hrepeated.value, hran.value, Nat.succ_mul, Nat.add_comm (n * _), Nat.add_assoc]

/-- **After a first round all rounds are alike.** -/
theorem Ran.exists_repeatWord {l₁ : Latch} (h : Ran w l rs l₁) (hroom : l.HasRoom w (n + 1)) :
    ∃ l', repeatWord w (n + 1) l =
        .ok (rs.count true + n * (results l₁.signaled w).count true) l' ∧
      Repeated w n (results l₁.signaled w) l₁ l' := by
  have hflag : flagAfter l₁.signaled w = l₁.signaled := by
    rw [h.signaled, flagAfter_flagAfter]
  rw [Nat.add_comm] at hroom
  obtain ⟨l', hrest, hrepeated⟩ :=
    exists_repeated h.balanced hflag (h.hasRoom_iff.mp hroom) (rs.count true)
  refine ⟨l', ?_, hrepeated⟩
  rw [repeatWord, h.repeatFrom_succ, Nat.zero_add, hrest]

/-- **After rounds that are alike comes one that is like them**, if there is room for it. -/
theorem Repeated.exists_ran (h : Repeated w n (results l.signaled w) l l')
    (hroom : l.HasRoom w (n + 1)) :
    ∃ l'', Ran w l' (results l.signaled w) l'' := by
  have hroom' : l'.HasRoom w 1 := by
    refine (hasRoom_add ?_ ?_).mp hroom
    · rw [h.value, (gain_results _ w).1]
    · rw [h.value, (gain_results _ w).2]
  obtain ⟨rs, l'', hran⟩ := Latch.exists_ran h.balanced hroom'
  have hresults : rs = results l.signaled w := by rw [hran.settled, h.signaled]
  exact ⟨l'', hresults ▸ hran⟩

/-- **To repeat a word is to run it once, and then to add the same again and again.** Take a latch
that anything was done to before, and `n` rounds of a word. They all run to their end exactly if
there is room to count their posts and timeouts, and then

* the first round has the results and leaves the flag that the flag before it settles, and the
  counters go up accordingly;
* all rounds together have the successes of the first one, and `n - 1` times those of a round from
  the flag that the first one leaves; they end with that flag, and the counters go up in the same
  way;
* every round but the first one has the results of a round from that flag, and the counters go up
  accordingly;
* in such a round as many posts succeed as takes. -/
theorem repetition_affine (v w : List Letter) (hn : 0 < n) :
    ((∃ s l, repeatWord w n (endure v) = .ok s l) ↔ (endure v).HasRoom w n) ∧
    ((endure v).HasRoom w n → ∃ rs₁ rs₂ l₁ lₙ,
      rs₁ = results (endure v).signaled w ∧ rs₂ = results l₁.signaled w ∧
      run w (endure v) = .ok rs₁ l₁ ∧ l₁.signaled = flagAfter (endure v).signaled w ∧
      (∀ k, l₁.stats.value k = (endure v).stats.value k + gain w rs₁ k) ∧
      repeatWord w n (endure v) = .ok (rs₁.count true + (n - 1) * rs₂.count true) lₙ ∧
      lₙ.signaled = l₁.signaled ∧
      (∀ k, lₙ.stats.value k =
        (endure v).stats.value k + gain w rs₁ k + (n - 1) * gain w rs₂ k) ∧
      (∀ i, 0 < i → i < n → ∃ s l l', repeatWord w i (endure v) = .ok s l ∧
        run w l = .ok rs₂ l' ∧ l'.signaled = l₁.signaled ∧
        ∀ k, l'.stats.value k = l.stats.value k + gain w rs₂ k) ∧
      (successful w rs₂).count .post = (successful w rs₂).count .take) := by
  have hb := balanced_endure v
  obtain ⟨n, rfl⟩ := Nat.exists_eq_add_one.mpr hn
  have hfirst : (endure v).HasRoom w (n + 1) → ∃ rs₁ l₁, Ran w (endure v) rs₁ l₁ :=
    fun hroom => exists_ran hb (hroom.of_le (Nat.le_add_left 1 n))
  refine ⟨⟨?_, fun hroom => ?_⟩, fun hroom => ?_⟩
  · rintro ⟨s, l, h⟩
    exact hasRoom_of_repeatFrom hb h
  · obtain ⟨rs₁, l₁, hran⟩ := hfirst hroom
    obtain ⟨l', h, -⟩ := hran.exists_repeatWord hroom
    exact ⟨_, l', h⟩
  · obtain ⟨rs₁, l₁, hran⟩ := hfirst hroom
    have hflag : flagAfter l₁.signaled w = l₁.signaled := by
      rw [hran.signaled, flagAfter_flagAfter]
    obtain ⟨lₙ, hrepeat, hrepeated⟩ := hran.exists_repeatWord hroom
    refine ⟨rs₁, _, l₁, lₙ, hran.settled, rfl, hran.run, hran.signaled, hran.value, hrepeat,
      hrepeated.signaled, fun k => ?_, fun i hi hlt => ?_, ?_⟩
    · rw [hrepeated.value, hran.value]
      rfl
    · -- the rounds before this one, and then one more
      obtain ⟨i, rfl⟩ := Nat.exists_eq_add_one.mpr hi
      obtain ⟨l, hbefore, hrounds⟩ := hran.exists_repeatWord (hroom.of_le (Nat.le_of_lt hlt))
      have hrest : (endure v).HasRoom w (1 + (i + 1)) := hroom.of_le (by omega)
      obtain ⟨l', hran'⟩ := hrounds.exists_ran (hran.hasRoom_iff.mp hrest)
      refine ⟨_, l, l', hbefore, hran'.run, ?_, hran'.value⟩
      rw [hran'.signaled, hrounds.signaled, hflag]
    · have hconserved := count_successful l₁.signaled w
      rw [hflag] at hconserved
      omega

/-- A round that takes a signal, puts one in, has another one absorbed and counts a timeout, three
times on a latch that is set: the first take succeeds as the later ones do, and in each round one
post does. -/
theorem repetition_affine_thrice :
    ∃ l, repeatWord [.take, .post, .recordTimeout, .post] 3 (endure [.post]) = .ok 6 l ∧
      l.signaled = true ∧ l.stats.value .posts = 7 ∧ l.stats.value .coalesced = 3 ∧
      l.stats.value .consumed = 3 ∧ l.stats.value .timeouts = 3 := by
  obtain ⟨-, hrounds⟩ :=
    repetition_affine (n := 3) [.post] [.take, .post, .recordTimeout, .post] (by decide)
  obtain ⟨rs₁, rs₂, l₁, l, rfl, rfl, -, hflag, -, hrepeat, hsignaled, hvalue, -⟩ :=
    hrounds (by decide)
  have hset : l₁.signaled = true := hflag
  rw [hset] at hrepeat hsignaled hvalue
  exact ⟨l, hrepeat, hsignaled, hvalue .posts, hvalue .coalesced, hvalue .consumed,
    hvalue .timeouts⟩

end Latch

end AutoReset
