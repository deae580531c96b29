import AutoReset.Latch.Word
import AutoReset.Proofs.Attempt
import AutoReset.Proofs.Latch.Balance
import Mathlib.Algebra.Group.Nat.Defs
import Mathlib.Data.List.Induction
/-!
# Going on at the limit of the counters

A latch can be used past a fault: a letter that ends in one leaves a latch behind, and the
next letter is tried on it. This file is about the latches that come of whole words in that
way (`AutoReset.Latch.endure`).

They are all in balance, since each letter keeps the balance however it ends. And in balance
the only letters that fault are those whose own counter is full, and they leave the latch as
it was (`AutoReset.Letter.act_eq`). So a counter of posts or of timeouts that has come to its
last value stays there, and nothing else goes wrong, for however long one goes on
(`AutoReset.Latch.faults_at_limit`).

What is pending is then never out of range. For counters that no latch can have, it is exactly
where the absorbed and the consumed signals outnumber the posts
(`AutoReset.Stats.exists_pending_eq_error_iff`).
-/

namespace AutoReset

/-- A count that goes up by one, unless it is full. -/
theorem Counter.toNat_ite_succ (c : Counter) :
    (if c = last then c else c + 1).toNat = min (c.toNat + 1) (2 ^ 64 - 1) := by
  by_cases hc : c = last
  · rw [if_pos hc, hc, toNat_last]
    decide
  · have hlt := ne_last_iff.mp hc
    rw [if_neg hc, toNat_succ hc]
    omega

/-! ### What is pending, for any counters -/

namespace Stats

variable {s : Stats} {d : Counter}

/-- What is pending is found by two subtractions. -/
theorem pending_eq_ok_iff_exists : s.pending = .ok d ↔
    ∃ kept, Counter.sub? s.posts s.coalesced = some kept ∧
      Counter.sub? kept s.consumed = some d := by
  unfold pending
  cases Counter.sub? s.posts s.coalesced with
  | none => simp
  | some kept => cases h : Counter.sub? kept s.consumed <;> simp [h]

/-- **What is pending is missing exactly where it would be negative**: the sum is one of natural
numbers, and may be larger than any counter. -/
theorem exists_pending_eq_error_iff : (∃ f, s.pending = .error f) ↔
    s.posts.toNat < s.coalesced.toNat + s.consumed.toNat := by
  unfold pending
  cases hkept : Counter.sub? s.posts s.coalesced with
  | none =>
    have hlt := Counter.sub?_eq_none_iff.mp hkept
    exact iff_of_true ⟨_, rfl⟩ (by omega)
  | some kept =>
    obtain ⟨hle, hnat⟩ := Counter.toNat_of_sub? hkept
    cases hleft : Counter.sub? kept s.consumed with
    | none =>
      have hlt := Counter.sub?_eq_none_iff.mp hleft
      exact iff_of_true ⟨.counterUnderflow, by simp only [hleft]⟩ (by omega)
    | some left =>
      have hle' := (Counter.toNat_of_sub? hleft).1
      refine iff_of_false ?_ (by omega)
      simp [hleft]

/-- **Where there is a difference, it is the plain one.** -/
theorem pending_eq_ok_iff : s.pending = .ok d ↔
    s.coalesced.toNat + s.consumed.toNat ≤ s.posts.toNat ∧
      d.toNat = s.posts.toNat - s.coalesced.toNat - s.consumed.toNat := by
  have hnat : ∀ {c : Counter}, s.pending = .ok c →
      c.toNat = s.posts.toNat - s.coalesced.toNat - s.consumed.toNat := by
    intro c hc
    obtain ⟨kept, hkept, hleft⟩ := pending_eq_ok_iff_exists.mp hc
    rw [(Counter.toNat_of_sub? hleft).2, (Counter.toNat_of_sub? hkept).2]
  cases hp : s.pending with
  | error f =>
    have hlt := exists_pending_eq_error_iff.mp ⟨f, hp⟩
    exact iff_of_false nofun (by omega)
  | ok c =>
    have hnot : ¬s.posts.toNat < s.coalesced.toNat + s.consumed.toNat := by
      rw [← exists_pending_eq_error_iff, hp]
      simp
    rw [Except.ok.injEq, ← UInt64.toNat_inj, hnat hp]
    omega

end Stats

/-! ### One letter -/

namespace Letter

/-- Is the counter of the letter full? Taking has none that could be. -/
def isFull (l : Latch) : Letter → Bool
  | post => l.stats.posts = Counter.last
  | take => false
  | recordTimeout => l.stats.timeouts = Counter.last

/-- The result of a letter that can be counted. -/
def result (l : Latch) : Letter → Bool
  | post => !l.signaled
  | take => l.signaled
  | recordTimeout => false

/-- The latch after a letter that can be counted. -/
def next (l : Latch) : Letter → Latch
  | post => l.posted
  | take => if l.signaled then l.taken else l
  | recordTimeout => l.expired

variable {l : Latch}

/-- **In balance a letter faults only if its counter is full**, and then changes nothing. -/
theorem act_eq (h : l.Balanced) (a : Letter) :
    a.act l = if a.isFull l then .error .counterOverflow l else .ok (a.result l) (a.next l) := by
  cases a with
  | post =>
    rw [act, Latch.post_eq h]
    simp only [isFull, decide_eq_true_eq, result, next]
  | take =>
    rw [act, Latch.take_eq h]
    cases hs : l.signaled <;> simp [isFull, result, next, hs]
  | recordTimeout =>
    simp only [act, Attempt.bind_apply, Latch.recordTimeout_eq]
    by_cases ht : l.stats.timeouts = Counter.last
    · simp [isFull, ht]
    · simp [isFull, result, next, ht, Attempt.pure_apply]

theorem after_act (h : l.Balanced) (a : Letter) :
    a.act.after l = if a.isFull l then l else a.next l := by
  rw [Attempt.after, act_eq h]
  cases a.isFull l <;> rfl

/-- **The balance is kept**, however the letter ends. -/
theorem balanced_after (h : l.Balanced) (a : Letter) : (a.act.after l).Balanced := by
  rw [after_act h]
  cases hfull : a.isFull l with
  | true => exact h
  | false =>
    cases a with
    | post => exact h.posted (of_decide_eq_false hfull)
    | take =>
      show (if l.signaled then l.taken else l).Balanced
      split
      · next hs => exact h.taken hs
      · exact h
    | recordTimeout => exact h.expired

/-- A count is one more, until it is full. -/
theorem toNat_after (h : l.Balanced) (a : Letter) :
    (a.act.after l).stats.posts.toNat =
        min (l.stats.posts.toNat + [a].count .post) (2 ^ 64 - 1) ∧
      (a.act.after l).stats.timeouts.toNat =
        min (l.stats.timeouts.toNat + [a].count .recordTimeout) (2 ^ 64 - 1) := by
  have hsame : ∀ c : Counter, c.toNat = min (c.toNat + 0) (2 ^ 64 - 1) := fun c => by
    have := c.toNat_lt
    omega
  rw [after_act h]
  cases a with
  | post =>
    refine ⟨?_, (congrArg UInt64.toNat ?_).trans (hsame l.stats.timeouts)⟩
    · rw [List.count_singleton_self, ← Counter.toNat_ite_succ]
      by_cases hp : l.stats.posts = Counter.last <;> simp [isFull, next, Latch.posted, hp]
    · split <;> rfl
  | take =>
    refine ⟨(congrArg UInt64.toNat ?_).trans (hsame l.stats.posts),
      (congrArg UInt64.toNat ?_).trans (hsame l.stats.timeouts)⟩
    all_goals cases hs : l.signaled <;> simp [isFull, next, Latch.taken, hs]
  | recordTimeout =>
    refine ⟨(congrArg UInt64.toNat ?_).trans (hsame l.stats.posts), ?_⟩
    · split <;> rfl
    · rw [List.count_singleton_self, ← Counter.toNat_ite_succ]
      by_cases ht : l.stats.timeouts = Counter.last <;> simp [isFull, next, Latch.expired, ht]

end Letter

/-! ### Whole words -/

namespace Latch

/-- The latch that a word leaves of a new one, if every letter is tried, past all faults. -/
def endure (w : List Letter) : Latch := w.foldl (fun l a => a.act.after l) fresh

@[simp] theorem endure_nil : endure [] = fresh := rfl

theorem endure_snoc (w : List Letter) (a : Letter) :
    endure (w ++ [a]) = a.act.after (endure w) := by
  rw [endure, List.foldl_append]
  rfl

/-- **Every latch that is used is in balance.** -/
theorem balanced_endure (w : List Letter) : (endure w).Balanced := by
  induction w using List.reverseRecOn with
  | nil => exact balanced_fresh
  | append_singleton w a ih =>
    rw [endure_snoc]
    exact a.balanced_after ih

/-- **Posts and timeouts are counted up to the last value**, and not beyond. -/
theorem toNat_endure (w : List Letter) :
    (endure w).stats.posts.toNat = min (w.count .post) (2 ^ 64 - 1) ∧
      (endure w).stats.timeouts.toNat = min (w.count .recordTimeout) (2 ^ 64 - 1) := by
  induction w using List.reverseRecOn with
  | nil => exact ⟨rfl, rfl⟩
  | append_singleton w a ih =>
    obtain ⟨hposts, htimeouts⟩ := ih
    obtain ⟨hp, ht⟩ := Letter.toNat_after (balanced_endure w) a
    rw [endure_snoc, List.count_append, List.count_append]
    omega

/-- **What a latch can be relied on for**, however it was used. -/
structure Reliable (l : Latch) : Prop where
  /-- The only letters that fault are a post and a timeout whose own counter is full, and they
  leave the flag and all counters as they were. -/
  faults {a : Letter} {f : Fault} {l' : Latch} : a.act l = .error f l' ↔
    f = .counterOverflow ∧ l' = l ∧
      (a = .post ∧ l.stats.posts.toNat = 2 ^ 64 - 1 ∨
        a = .recordTimeout ∧ l.stats.timeouts.toNat = 2 ^ 64 - 1)
  /-- A post that has been counted can be counted as absorbed. -/
  coalesced {l' : Latch} : countPost l = .ok () l' → l'.signaled = true →
    ∃ l'', countCoalesced l' = .ok () l''
  /-- A signal that has been taken out of the slot can be counted as consumed. -/
  consumed : l.signaled = true → ∃ l', countConsumed { l with signaled := false } = .ok () l'
  /-- Neither subtraction is below zero, and what is left is what the flag says. -/
  differences : ∃ kept, Counter.sub? l.stats.posts l.stats.coalesced = some kept ∧
    Counter.sub? kept l.stats.consumed = some (if l.signaled then 1 else 0)
  /-- One signal is pending if the flag is set, and none if not. -/
  pending : l.stats.pending = .ok (if l.signaled then 1 else 0)

/-- **A latch in balance is reliable.** -/
theorem Balanced.reliable {l : Latch} (h : l.Balanced) : l.Reliable where
  faults {a f l'} := by
    have hlast : ∀ c : Counter, c = Counter.last ↔ c.toNat = 2 ^ 64 - 1 := by
      intro c
      rw [← UInt64.toNat_inj, Counter.toNat_last,
        show (2 ^ 64 - 1 : Nat) = 0xFFFFFFFFFFFFFFFF from rfl]
    have hfull : a.isFull l = true ↔
        a = .post ∧ l.stats.posts = Counter.last ∨
          a = .recordTimeout ∧ l.stats.timeouts = Counter.last := by
      cases a <;> simp [Letter.isFull]
    rw [Letter.act_eq h, ← hlast, ← hlast, ← hfull]
    cases a.isFull l with
    | true => simpa using ⟨fun hf => ⟨hf.1.symm, hf.2.symm⟩, fun hf => ⟨hf.1.symm, hf.2.symm⟩⟩
    | false => simp
  coalesced {l'} hpost _ := by
    by_cases hp : l.stats.posts = Counter.last
    · simp [countPost, Counter.succ?, hp] at hpost
    · have hc := h.coalesced_ne_last hp
      simp only [countPost, Counter.succ?, if_neg hp, EStateM.Result.ok.injEq, true_and] at hpost
      subst hpost
      simp [countCoalesced, Counter.succ?, hc]
  consumed hs := by
    have hc := h.consumed_ne_last hs
    simp [countConsumed, Counter.succ?, hc]
  differences := Stats.pending_eq_ok_iff_exists.mp h.pending
  pending := h.pending

/-- **Only the full counters fault.** Whatever was done with a new latch, past any number of
faults, the latch that is left is reliable; posts and timeouts are counted up to the last
value, and no further. And for whatever counters, what is pending is missing exactly where the
absorbed and the consumed signals outnumber the posts, and is else the difference. -/
theorem faults_at_limit (w : List Letter) :
    (endure w).Reliable ∧
      (endure w).stats.posts.toNat = min (w.count .post) (2 ^ 64 - 1) ∧
      (endure w).stats.timeouts.toNat = min (w.count .recordTimeout) (2 ^ 64 - 1) ∧
      ∀ s : Stats,
        ((∃ f, s.pending = .error f) ↔
          s.posts.toNat < s.coalesced.toNat + s.consumed.toNat) ∧
        ∀ d, s.pending = .ok d ↔
          s.coalesced.toNat + s.consumed.toNat ≤ s.posts.toNat ∧
            d.toNat = s.posts.toNat - s.coalesced.toNat - s.consumed.toNat :=
  ⟨(balanced_endure w).reliable, (toNat_endure w).1, (toNat_endure w).2,
    fun _ => ⟨Stats.exists_pending_eq_error_iff, fun _ => Stats.pending_eq_ok_iff⟩⟩

/-- There is a latch at the limit: after `2 ^ 64` posts one more faults, and changes nothing. And
two counts can be too large together to be added up in one word. -/
theorem faults_at_limit_full :
    Letter.post.act (endure (.replicate (2 ^ 64) .post)) =
        .error .counterOverflow (endure (.replicate (2 ^ 64) .post)) ∧
      ∃ f, ({ posts := 5, coalesced := Counter.last, consumed := 6 } : Stats).pending =
        .error f := by
  refine ⟨?_, ((faults_at_limit []).2.2.2 _).1.mpr (by decide)⟩
  have hcount : (List.replicate (2 ^ 64) Letter.post).count .post = 2 ^ 64 :=
    List.count_replicate_self
  -- the word is too long to be looked at
  generalize List.replicate (2 ^ 64) Letter.post = w at hcount ⊢
  obtain ⟨hreliable, hposts, -⟩ := faults_at_limit w
  exact hreliable.faults.mpr ⟨rfl, rfl, Or.inl ⟨rfl, by omega⟩⟩

end Latch

end AutoReset
