import AutoReset.Latch
/-!
# The balance of a latch

Every signal that a latch has received was absorbed, was consumed, or is still in
the slot. `AutoReset.Latch.Balanced` says so of the counters, and every operation
keeps it, whether it ends well or in a fault.

The balance is also what makes the operations plain. A latch in balance has
consumed and absorbed no more than it received, so the counters of absorbed and of
consumed signals are never full when they have to go up: the only faults left are a
post with the counter of posts full (`AutoReset.Latch.post_eq`) and a timeout with
the counter of timeouts full (`AutoReset.Latch.recordTimeout_eq`), and both leave the
latch as it was. Taking never fails (`AutoReset.Latch.take_eq`).
-/

namespace AutoReset

namespace Counter

/-- Below the last count, adding one adds one. -/
theorem toNat_succ {c : Counter} (h : c ≠ last) : (c + 1).toNat = c.toNat + 1 := by
  refine toNat_of_succ? ?_
  rw [succ?, if_neg h]

theorem le_succ {c : Counter} (h : c ≠ last) : c ≤ c + 1 := by
  rw [UInt64.le_iff_toNat_le, toNat_succ h]
  omega

theorem ne_last_iff {c : Counter} : c ≠ last ↔ c.toNat < 0xFFFFFFFFFFFFFFFF := by
  have hlt := c.toNat_lt
  rw [ne_eq, ← UInt64.toNat_inj, toNat_last]
  omega

end Counter

/-- No count is lower. -/
protected def Stats.le (s u : Stats) : Prop :=
  s.posts ≤ u.posts ∧ s.coalesced ≤ u.coalesced ∧ s.consumed ≤ u.consumed ∧
    s.timeouts ≤ u.timeouts

instance : LE Stats := ⟨Stats.le⟩

namespace Stats

protected theorem le_refl (s : Stats) : s ≤ s :=
  ⟨UInt64.le_refl _, UInt64.le_refl _, UInt64.le_refl _, UInt64.le_refl _⟩

protected theorem le_trans {s u v : Stats} (h : s ≤ u) (h' : u ≤ v) : s ≤ v :=
  ⟨UInt64.le_trans h.1 h'.1, UInt64.le_trans h.2.1 h'.2.1, UInt64.le_trans h.2.2.1 h'.2.2.1,
    UInt64.le_trans h.2.2.2 h'.2.2.2⟩

end Stats

namespace Latch

/-! ### What the operations leave behind -/

/-- The latch after one more signal. -/
def posted (l : Latch) : Latch where
  signaled := true
  stats :=
    { l.stats with
      posts := l.stats.posts + 1
      coalesced := if l.signaled then l.stats.coalesced + 1 else l.stats.coalesced }

/-- The latch after the signal in its slot was consumed. -/
def taken (l : Latch) : Latch where
  signaled := false
  stats := { l.stats with consumed := l.stats.consumed + 1 }

/-- The latch after one more bounded wait that ran out. -/
def expired (l : Latch) : Latch :=
  { l with stats.timeouts := l.stats.timeouts + 1 }

@[simp] theorem signaled_taken (l : Latch) : l.taken.signaled = false := rfl

@[simp] theorem signaled_expired (l : Latch) : l.expired.signaled = l.signaled := rfl

/-! ### The balance -/

/-- **Received is absorbed, consumed or pending.** -/
def Balanced (l : Latch) : Prop :=
  l.stats.posts.toNat = l.stats.coalesced.toNat + l.stats.consumed.toNat + l.signaled.toNat

theorem balanced_fresh : fresh.Balanced := rfl

variable {l : Latch}

/-- In balance, there is room to count an absorbed signal where there is room to
count a received one. -/
theorem Balanced.coalesced_ne_last (h : l.Balanced) (hp : l.stats.posts ≠ Counter.last) :
    l.stats.coalesced ≠ Counter.last := by
  unfold Balanced at h
  rw [Counter.ne_last_iff] at hp ⊢
  omega

/-- In balance, there is room to count the pending signal as consumed. -/
theorem Balanced.consumed_ne_last (h : l.Balanced) (hs : l.signaled = true) :
    l.stats.consumed ≠ Counter.last := by
  have hlt := l.stats.posts.toNat_lt
  unfold Balanced at h
  rw [hs, Bool.toNat_true] at h
  rw [Counter.ne_last_iff]
  omega

/-! ### The operations in balance -/

/-- **Posting fails only with a full counter of posts**, and then changes nothing. -/
theorem post_eq (h : l.Balanced) :
    post l = if l.stats.posts = Counter.last then .error .counterOverflow l
      else .ok (!l.signaled) l.posted := by
  by_cases hp : l.stats.posts = Counter.last
  · rw [if_pos hp]
    simp [post, countPost, Counter.succ?, hp, Attempt.bind_apply]
  · have hc := h.coalesced_ne_last hp
    rw [if_neg hp]
    cases hs : l.signaled with
    | true =>
      simp [post, countPost, countCoalesced, Counter.succ?, hp, hc, hs, posted,
        Attempt.bind_apply, Attempt.get_apply, Attempt.map_apply]
    | false =>
      simp [post, countPost, Counter.succ?, hp, hs, posted, Attempt.bind_apply,
        Attempt.get_apply, Attempt.map_apply, Attempt.modify_apply]

/-- **Taking never fails.** -/
theorem take_eq (h : l.Balanced) :
    take l = if l.signaled then .ok true l.taken else .ok false l := by
  cases hs : l.signaled with
  | true =>
    have hc := h.consumed_ne_last hs
    simp [take, countConsumed, Counter.succ?, hc, hs, taken, Attempt.bind_apply,
      Attempt.get_apply, Attempt.map_apply, Attempt.modify_apply]
  | false =>
    simp [take, hs, Attempt.bind_apply, Attempt.get_apply, Attempt.pure_apply]

/-- **Counting a timeout fails only with a full counter of timeouts**, and then changes
nothing. -/
theorem recordTimeout_eq (l : Latch) :
    recordTimeout l = if l.stats.timeouts = Counter.last then .error .counterOverflow l
      else .ok () l.expired := by
  by_cases ht : l.stats.timeouts = Counter.last
  · simp [recordTimeout, Counter.succ?, ht]
  · simp [recordTimeout, Counter.succ?, ht, expired]

/-! ### The balance is kept -/

theorem Balanced.posted (h : l.Balanced) (hp : l.stats.posts ≠ Counter.last) :
    l.posted.Balanced := by
  have hc := Counter.toNat_succ (h.coalesced_ne_last hp)
  have hq := Counter.toNat_succ hp
  unfold Balanced at h
  unfold Balanced Latch.posted
  cases hs : l.signaled with
  | true =>
    simp only [hs, if_true, hc, hq, Bool.toNat_true] at h ⊢
    omega
  | false =>
    simp only [hs, hq, Bool.toNat_true, Bool.toNat_false, Bool.false_eq_true, if_false] at h ⊢
    omega

theorem Balanced.taken (h : l.Balanced) (hs : l.signaled = true) : l.taken.Balanced := by
  have hc := Counter.toNat_succ (h.consumed_ne_last hs)
  unfold Balanced at h
  unfold Balanced Latch.taken
  simp only [hs, hc, Bool.toNat_true, Bool.toNat_false] at h ⊢
  omega

theorem Balanced.expired (h : l.Balanced) : l.expired.Balanced := h

/-! ### No counter goes down -/

theorem Balanced.le_posted (h : l.Balanced) (hp : l.stats.posts ≠ Counter.last) :
    l.stats ≤ l.posted.stats := by
  refine ⟨Counter.le_succ hp, ?_, UInt64.le_refl _, UInt64.le_refl _⟩
  unfold Latch.posted
  split
  · exact Counter.le_succ (h.coalesced_ne_last hp)
  · exact UInt64.le_refl _

theorem Balanced.le_taken (h : l.Balanced) (hs : l.signaled = true) : l.stats ≤ l.taken.stats :=
  ⟨UInt64.le_refl _, UInt64.le_refl _, Counter.le_succ (h.consumed_ne_last hs), UInt64.le_refl _⟩

theorem le_expired (ht : l.stats.timeouts ≠ Counter.last) : l.stats ≤ l.expired.stats :=
  ⟨UInt64.le_refl _, UInt64.le_refl _, UInt64.le_refl _, Counter.le_succ ht⟩

/-! ### What is pending -/

/-- **In balance, what is pending is one signal or none**, as the flag says. -/
theorem Balanced.pending (h : l.Balanced) :
    l.stats.pending = .ok (if l.signaled then 1 else 0) := by
  have hle : l.stats.coalesced ≤ l.stats.posts := by
    rw [UInt64.le_iff_toNat_le]
    unfold Balanced at h
    omega
  have hkept := UInt64.toNat_sub_of_le _ _ hle
  have hle' : l.stats.consumed ≤ l.stats.posts - l.stats.coalesced := by
    rw [UInt64.le_iff_toNat_le, hkept]
    unfold Balanced at h
    omega
  have hleft : l.stats.posts - l.stats.coalesced - l.stats.consumed =
      if l.signaled then 1 else 0 := by
    rw [← UInt64.toNat_inj, UInt64.toNat_sub_of_le _ _ hle', hkept]
    unfold Balanced at h
    cases hs : l.signaled with
    | true =>
      simp only [hs, Bool.toNat_true] at h
      simp only [if_true, UInt64.toNat_one]
      omega
    | false =>
      simp only [hs, Bool.toNat_false] at h
      simp only [Bool.false_eq_true, if_false, UInt64.toNat_zero]
      omega
  simp only [Stats.pending, Counter.sub?, hle, hle', if_true, hleft]

end Latch

end AutoReset
