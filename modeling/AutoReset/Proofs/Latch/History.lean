import AutoReset.Proofs.Latch.Endurance
import AutoReset.Proofs.Places
import Mathlib.Data.List.Induction
/-!
# The past of a latch tells everything about it

A latch has a single slot, so all that matters of its past is which letter touched the slot
last: the nearest post or take (`AutoReset.Letter.latest?`). If that was a post, the slot is
full; then the next post is absorbed, and the next take finds a signal. Where each letter
stands in a word therefore settles its result, and the counters count places of the word
(`AutoReset.Latch.history_law`).

All of it goes by induction on the word from its end. What one more letter does depends on the
flag alone, and the flag is what the nearest post or take says
(`AutoReset.Latch.signaled_endure`). Timeouts touch nothing but their own counter, so they can
be struck out of a word anywhere (`AutoReset.Latch.endure_filter`).
-/

namespace AutoReset

namespace Letter

/-- The nearest post or take, seen from the end of a word. -/
def latest? (w : List Letter) : Option Letter := (w.filter (· ≠ .recordTimeout)).getLast?

/-- At how many places of a word does a letter stand to which the nearest earlier post or take
is a post? -/
def afterPost (a : Letter) : List Letter → Nat :=
  countPlaces fun v b => b = a ∧ latest? v = some .post

@[simp] theorem latest?_nil : latest? [] = none := rfl

theorem latest?_snoc (w : List Letter) (a : Letter) :
    latest? (w ++ [a]) = if a = .recordTimeout then latest? w else some a := by
  unfold latest?
  rw [List.filter_append]
  by_cases ha : a = .recordTimeout
  · simp [ha]
  · simp [ha]

theorem afterPost_snoc (a b : Letter) (w : List Letter) :
    afterPost a (w ++ [b]) =
      afterPost a w + if b = a ∧ latest? w = some .post then 1 else 0 := by
  unfold afterPost
  rw [countPlaces_snoc]
  exact congrArg (_ + ·) (Bool.cond_decide ..)

/-- The nearest post or take is a post or a take. -/
theorem latest?_cases (w : List Letter) :
    latest? w = none ∨ latest? w = some .post ∨ latest? w = some .take := by
  induction w using List.reverseRecOn with
  | nil => exact Or.inl rfl
  | append_singleton w a ih =>
    rw [latest?_snoc]
    cases a <;> simp [ih]

end Letter

namespace Latch

/-! ### The flag and the counters -/

variable {w : List Letter}

/-- A letter of a word can be counted if the word does not have too many. -/
theorem isFull_endure {a : Letter} (hp : (w ++ [a]).count .post < 2 ^ 64)
    (ht : (w ++ [a]).count .recordTimeout < 2 ^ 64) : a.isFull (endure w) = false := by
  obtain ⟨hposts, htimeouts⟩ := toNat_endure w
  rw [List.count_append] at hp ht
  cases a with
  | post =>
    rw [List.count_singleton_self] at hp
    refine decide_eq_false (Counter.ne_last_iff.mpr ?_)
    omega
  | take => rfl
  | recordTimeout =>
    rw [List.count_singleton_self] at ht
    refine decide_eq_false (Counter.ne_last_iff.mpr ?_)
    omega

/-- **What one letter does to the slot** depends on the flag alone. -/
theorem slot_after {l : Latch} (hb : l.Balanced) {a : Letter} (hfull : a.isFull l = false) :
    (a.act.after l).signaled = (if a = .recordTimeout then l.signaled else decide (a = .post)) ∧
      (a.act.after l).stats.coalesced.toNat =
        l.stats.coalesced.toNat + (if a = .post ∧ l.signaled = true then 1 else 0) ∧
      (a.act.after l).stats.consumed.toNat =
        l.stats.consumed.toNat + (if a = .take ∧ l.signaled = true then 1 else 0) := by
  rw [Letter.after_act hb, hfull]
  cases a with
  | post =>
    have hc := Counter.toNat_succ (hb.coalesced_ne_last (of_decide_eq_false hfull))
    cases hs : l.signaled <;> simp [Letter.next, posted, hs, hc]
  | take =>
    cases hs : l.signaled with
    | true =>
      have hc := Counter.toNat_succ (hb.consumed_ne_last hs)
      simp [Letter.next, taken, hs, hc]
    | false => simp [Letter.next, hs]
  | recordTimeout => simp [Letter.next, expired]

/-- **The flag says whether the slot was last posted to**, and the absorbed and the consumed
signals are the posts and the takes that came next. -/
theorem signaled_endure (hp : w.count .post < 2 ^ 64) (ht : w.count .recordTimeout < 2 ^ 64) :
    ((endure w).signaled = true ↔ Letter.latest? w = some .post) ∧
      (endure w).stats.coalesced.toNat = Letter.afterPost .post w ∧
      (endure w).stats.consumed.toNat = Letter.afterPost .take w := by
  induction w using List.reverseRecOn with
  | nil => exact ⟨by decide, rfl, rfl⟩
  | append_singleton w a ih =>
    obtain ⟨hflag, hcoalesced, hconsumed⟩ := slot_after (balanced_endure w) (isFull_endure hp ht)
    rw [List.count_append] at hp ht
    obtain ⟨ihflag, ihcoalesced, ihconsumed⟩ := ih (by omega) (by omega)
    simp only [endure_snoc, hflag, hcoalesced, hconsumed, Letter.latest?_snoc,
      Letter.afterPost_snoc, ihcoalesced, ihconsumed, ihflag, and_self, and_true]
    cases a <;> simp [ihflag]

/-! ### Striking out the timeouts -/

/-- The latch without its count of timeouts. -/
def untimed (l : Latch) : Latch := { l with stats.timeouts := 0 }

/-- **A timeout leaves all but its own counter**, be that full or not. -/
theorem untimed_after_recordTimeout {l : Latch} (hb : l.Balanced) :
    (Letter.recordTimeout.act.after l).untimed = l.untimed := by
  rw [Letter.after_act hb]
  split <;> rfl

/-- **A post or a take does not look at the count of timeouts.** -/
theorem untimed_after_of_ne {l : Latch} (hb : l.Balanced) {a : Letter}
    (ha : a ≠ .recordTimeout) : (a.act.after l).untimed = a.act.after l.untimed := by
  have hb' : l.untimed.Balanced := hb
  rw [Letter.after_act hb, Letter.after_act hb']
  cases a with
  | post =>
    show _ = if Letter.isFull l .post then _ else _
    split <;> rfl
  | take =>
    show untimed (if l.signaled then _ else _) = if l.signaled then _ else _
    split <;> rfl
  | recordTimeout => exact absurd rfl ha

/-- **Timeouts can be struck out of a word**: what is left of it leaves the same flag and the
same other counters. -/
theorem endure_filter (w : List Letter) :
    endure (w.filter (· ≠ .recordTimeout)) = (endure w).untimed := by
  induction w using List.reverseRecOn with
  | nil => rfl
  | append_singleton w a ih =>
    rw [List.filter_append, endure_snoc]
    by_cases ha : a = .recordTimeout
    · subst ha
      rw [untimed_after_recordTimeout (balanced_endure w), ← ih]
      simp
    · rw [untimed_after_of_ne (balanced_endure w) ha, ← ih, ← endure_snoc]
      simp [ha]

/-! ### The results -/

/-- One letter more. -/
theorem run_snoc {a : Letter} {l l₁ l₂ : Latch} {rs : List Bool} {r : Bool}
    (hw : run w l = .ok rs l₁) (ha : a.act l₁ = .ok r l₂) :
    run (w ++ [a]) l = .ok (rs ++ [r]) l₂ := by
  induction w generalizing l rs with
  | nil =>
    cases hw
    simp [run, Attempt.bind_apply, ha, Attempt.pure_apply]
  | cons b w ih =>
    obtain ⟨r', l', hb, hrest⟩ := Attempt.exists_of_bind hw
    obtain ⟨rs', l'', hw', heq⟩ := Attempt.exists_of_bind hrest
    cases heq
    rw [List.cons_append, run, Attempt.bind_apply, hb]
    simp only [Attempt.bind_apply, ih hw']
    rfl

/-- The letters whose result was true. -/
def successful (w : List Letter) (rs : List Bool) : List Letter :=
  ((w.zip rs).filter (·.2)).map (·.1)

/-- The results without those of the timeouts. -/
def untimedResults (w : List Letter) (rs : List Bool) : List Bool :=
  ((w.zip rs).filter (·.1 ≠ .recordTimeout)).map (·.2)

/-- **The letters of a word were all counted, with these results.** -/
structure Counted (w : List Letter) (rs : List Bool) : Prop where
  /-- The word ran to its end. -/
  run : run w fresh = .ok rs (endure w)
  /-- Every letter has a result. -/
  length : rs.length = w.length
  /-- It is the one on the latch that the letters before it left. -/
  result {i : Nat} {a : Letter} : w[i]? = some a → rs[i]? = some (a.result (endure (w.take i)))
  /-- The letters that returned true are posts and takes in turn. -/
  alternate {i : Nat} {a : Letter} : (successful w rs)[i]? = some a →
    a = if i % 2 = 0 then .post else .take
  /-- There is one post more than takes if the flag is set. -/
  parity : (endure w).signaled = true ↔ (successful w rs).length % 2 = 1
  /-- Without the timeouts, the others have the same results. -/
  untimed : Latch.run (w.filter (· ≠ .recordTimeout)) fresh =
    .ok (untimedResults w rs) (endure w).untimed

theorem counted_nil : Counted [] [] where
  run := rfl
  length := rfl
  result h := by cases h
  alternate h := by cases h
  parity := by decide
  untimed := rfl

theorem successful_snoc {rs : List Bool} (hlength : rs.length = w.length) (a : Letter) (r : Bool) :
    successful (w ++ [a]) (rs ++ [r]) = successful w rs ++ if r then [a] else [] := by
  unfold successful
  rw [List.zip_append hlength.symm, List.filter_append, List.map_append]
  cases r <;> rfl

theorem untimedResults_snoc {rs : List Bool} (hlength : rs.length = w.length) (a : Letter)
    (r : Bool) : untimedResults (w ++ [a]) (rs ++ [r]) =
      untimedResults w rs ++ if a = .recordTimeout then [] else [r] := by
  unfold untimedResults
  rw [List.zip_append hlength.symm, List.filter_append, List.map_append]
  by_cases ha : a = .recordTimeout <;> simp [ha]

/-- A letter that fails leaves the flag. -/
theorem signaled_after_of_not_result {l : Latch} (hb : l.Balanced) {a : Letter}
    (hfull : a.isFull l = false) (hr : a.result l = false) :
    (a.act.after l).signaled = l.signaled := by
  rw [(slot_after hb hfull).1]
  cases a with
  | post =>
    have hs : l.signaled = true := by simpa [Letter.result] using hr
    simp [hs]
  | take =>
    have hs : l.signaled = false := hr
    simp [hs]
  | recordTimeout => rfl

/-- **A letter that succeeds turns the flag over**: it is a post on a clear flag or a take on a
set one. -/
theorem signaled_after_of_result {l : Latch} (hb : l.Balanced) {a : Letter}
    (hfull : a.isFull l = false) (hr : a.result l = true) :
    a = (if l.signaled then .take else .post) ∧ (a.act.after l).signaled = !l.signaled := by
  rw [(slot_after hb hfull).1]
  cases a with
  | post =>
    have hs : l.signaled = false := by simpa [Letter.result] using hr
    simp [hs]
  | take =>
    have hs : l.signaled = true := hr
    simp [hs]
  | recordTimeout => cases hr

/-- **One letter more that can be counted.** -/
theorem Counted.snoc {rs : List Bool} {a : Letter} (h : Counted w rs)
    (hfull : a.isFull (endure w) = false) :
    Counted (w ++ [a]) (rs ++ [a.result (endure w)]) := by
  have hb := balanced_endure w
  have hact : a.act (endure w) = .ok (a.result (endure w)) (endure (w ++ [a])) := by
    rw [endure_snoc, Letter.after_act hb, Letter.act_eq hb, hfull]
    rfl
  have hparity := h.parity
  refine ⟨run_snoc h.run hact, by simp [h.length], ?result, ?alternate, ?parity, ?untimed⟩
  case result =>
    intro i b hi
    obtain hi | ⟨rfl, rfl⟩ := getElem?_snoc.mp hi
    · have hlt := (List.getElem?_eq_some_iff.mp hi).1
      rw [List.take_append_of_le_length (Nat.le_of_lt hlt)]
      exact getElem?_snoc.mpr (Or.inl (h.result hi))
    · rw [List.take_left]
      exact getElem?_snoc.mpr (Or.inr ⟨h.length.symm, rfl⟩)
  case alternate =>
    intro i b hi
    rw [successful_snoc h.length] at hi
    cases hr : a.result (endure w) with
    | false => exact h.alternate (by simpa [hr] using hi)
    | true =>
      rw [hr, if_pos rfl, getElem?_snoc] at hi
      obtain hi | ⟨rfl, rfl⟩ := hi
      · exact h.alternate hi
      · rw [(signaled_after_of_result hb hfull hr).1]
        cases hs : (endure w).signaled <;> simp [hs] at hparity ⊢ <;> omega
  case parity =>
    rw [successful_snoc h.length, endure_snoc]
    cases hr : a.result (endure w) with
    | false => simpa [signaled_after_of_not_result hb hfull hr] using hparity
    | true =>
      rw [(signaled_after_of_result hb hfull hr).2, Bool.not_eq_true', ← Bool.not_eq_true, hparity,
        if_pos rfl, List.length_append, List.length_singleton]
      omega
  case untimed =>
    rw [List.filter_append, untimedResults_snoc h.length, endure_snoc]
    by_cases ha : a = .recordTimeout
    · subst ha
      rw [untimed_after_recordTimeout hb]
      simpa using h.untimed
    · have hb' : (endure w).untimed.Balanced := hb
      have hfull' : a.isFull (endure w).untimed = false := by
        cases a with
        | post => exact hfull
        | take => rfl
        | recordTimeout => exact absurd rfl ha
      have hact' : a.act (endure w).untimed =
          .ok (a.result (endure w)) (a.act.after (endure w).untimed) := by
        rw [Letter.after_act hb', Letter.act_eq hb', hfull']
        cases a <;> rfl
      rw [untimed_after_of_ne hb ha]
      simpa [ha] using run_snoc h.untimed hact'

/-- **A word with not too many posts and timeouts is counted.** -/
theorem exists_counted (hp : w.count .post < 2 ^ 64) (ht : w.count .recordTimeout < 2 ^ 64) :
    ∃ rs, Counted w rs := by
  induction w using List.reverseRecOn with
  | nil => exact ⟨[], counted_nil⟩
  | append_singleton w a ih =>
    have hfull := isFull_endure hp ht
    rw [List.count_append] at hp ht
    obtain ⟨rs, hrs⟩ := ih (by omega) (by omega)
    exact ⟨_, hrs.snoc hfull⟩

/-- **The past of a latch settles all its answers.** In a word over the operations of a new latch,
with fewer than `2 ^ 64` posts and timeouts, every letter succeeds or not by what the nearest
earlier post or take was, the flag and the counters at the end are told by the places of the
letters, posts and takes succeed in turn, and the timeouts change nothing but their own
counter. -/
theorem history_law (hp : w.count .post < 2 ^ 64) (ht : w.count .recordTimeout < 2 ^ 64) :
    ∃ rs l, run w fresh = .ok rs l ∧ rs.length = w.length ∧
      (l.signaled = true ↔ Letter.latest? w = some .post) ∧
      (∀ i, w[i]? = some .post → (rs[i]? = some true ↔
        Letter.latest? (w.take i) = some .take ∨ Letter.latest? (w.take i) = none)) ∧
      (∀ i, w[i]? = some .take →
        (rs[i]? = some true ↔ Letter.latest? (w.take i) = some .post)) ∧
      l.stats.posts.toNat = w.count .post ∧
      l.stats.timeouts.toNat = w.count .recordTimeout ∧
      l.stats.coalesced.toNat = Letter.afterPost .post w ∧
      l.stats.consumed.toNat = Letter.afterPost .take w ∧
      (∀ i a, (successful w rs)[i]? = some a → a = if i % 2 = 0 then .post else .take) ∧
      run (w.filter (· ≠ .recordTimeout)) fresh =
        .ok (untimedResults w rs) { l with stats.timeouts := 0 } := by
  obtain ⟨rs, h⟩ := exists_counted hp ht
  obtain ⟨hflag, hcoalesced, hconsumed⟩ := signaled_endure hp ht
  obtain ⟨hposts, htimeouts⟩ := toNat_endure w
  have hpast : ∀ i, (endure (w.take i)).signaled = true ↔
      Letter.latest? (w.take i) = some .post := by
    intro i
    have hcount := fun a => (List.take_sublist i w).count_le (a := a)
    exact (signaled_endure (by have := hcount .post; omega)
      (by have := hcount .recordTimeout; omega)).1
  refine ⟨rs, endure w, h.run, h.length, hflag, ?_, ?_, by omega, by omega, hcoalesced, hconsumed,
    fun i a => h.alternate, h.untimed⟩
  · intro i hi
    have hcases := Letter.latest?_cases (w.take i)
    have hs := hpast i
    rw [h.result hi, Option.some.injEq, Letter.result, Bool.not_eq_true']
    cases hsig : (endure (w.take i)).signaled with
    | true => simp [hs.mp hsig]
    | false =>
      have hne : Letter.latest? (w.take i) ≠ some .post := fun he => by
        rw [hs.mpr he] at hsig
        cases hsig
      simpa [hne, or_comm] using hcases
  · intro i hi
    rw [h.result hi, Option.some.injEq, ← hpast i]
    rfl

/-- Three posts and two takes around a timeout: the second post is absorbed, the second take
finds nothing. -/
theorem history_law_mixed :
    ∃ rs l, run [.post, .post, .recordTimeout, .take, .take, .post] fresh = .ok rs l ∧
      l.signaled = true ∧ rs[1]? ≠ some true ∧ rs[3]? = some true ∧ rs[4]? ≠ some true ∧
      l.stats.posts.toNat = 3 ∧ l.stats.coalesced.toNat = 1 ∧ l.stats.consumed.toNat = 1 := by
  obtain ⟨rs, l, hrun, -, hflag, hpost, htake, hposts, -, hcoalesced, hconsumed, -⟩ :=
    history_law (w := [.post, .post, .recordTimeout, .take, .take, .post]) (by decide) (by decide)
  refine ⟨rs, l, hrun, hflag.mpr rfl, ?_, (htake 3 rfl).mpr rfl, ?_, hposts,
    hcoalesced.trans (by decide), hconsumed.trans (by decide)⟩
  · rw [ne_eq, hpost 1 rfl]
    decide
  · rw [ne_eq, htake 4 rfl]
    decide

end Latch

end AutoReset
