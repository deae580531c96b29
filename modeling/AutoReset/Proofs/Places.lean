import Mathlib.Data.List.Induction
/-!
# Places of a list that grows at its end

The histories of a latch and of a machine get longer at the end. What stands at a place stays
there, and there is one new place (`AutoReset.getElem?_snoc`). Places can be counted by what
stands there and by all that stands before (`AutoReset.countPlaces`), and then one entry more
makes a difference of one or none (`AutoReset.countPlaces_snoc`).
-/

namespace AutoReset

variable {α : Type} {l : List α} {a b : α} {n : Nat}

/-- What stands in the longer list stands in the shorter one, or it is the new end. -/
theorem getElem?_snoc : (l ++ [a])[n]? = some b ↔ l[n]? = some b ∨ (n = l.length ∧ a = b) := by
  rw [List.getElem?_append]
  split
  · next hlt =>
    have hne : n ≠ l.length := Nat.ne_of_lt hlt
    simp [hne]
  · next hge =>
    rw [List.getElem?_eq_none (Nat.le_of_not_lt hge), List.getElem?_singleton]
    have hsub : n - l.length = 0 ↔ n = l.length := by omega
    simp [hsub]

/-- The number of places at which something holds, of what stands there and of the list of all
that stands before. -/
def countPlaces (f : List α → α → Bool) (l : List α) : Nat :=
  (List.range l.length).countP fun n => l[n]?.any (f (l.take n))

@[simp] theorem countPlaces_nil (f : List α → α → Bool) : countPlaces f [] = 0 := rfl

theorem countPlaces_snoc (f : List α → α → Bool) (l : List α) (a : α) :
    countPlaces f (l ++ [a]) = countPlaces f l + (f l a).toNat := by
  have hold : ∀ n ∈ List.range l.length,
      ((l ++ [a])[n]?.any (f ((l ++ [a]).take n)) = true ↔ l[n]?.any (f (l.take n)) = true) := by
    intro n hn
    have hlt := List.mem_range.mp hn
    rw [List.getElem?_append_left hlt, List.take_append_of_le_length (Nat.le_of_lt hlt)]
  unfold countPlaces
  rw [List.length_append, List.length_singleton, List.range_succ, List.countP_append,
    List.countP_congr hold, List.countP_singleton, List.getElem?_concat_length, List.take_left]
  cases hf : f l a <;> simp [hf]

/-- The places of a longer list. -/
theorem countPlaces_append (f : List α → α → Bool) (l l' : List α) :
    countPlaces f (l ++ l') = countPlaces f l + countPlaces (fun v b => f (l ++ v) b) l' := by
  induction l' using List.reverseRecOn with
  | nil => simp
  | append_singleton l' a ih =>
    rw [← List.append_assoc, countPlaces_snoc, countPlaces_snoc, ih, Nat.add_assoc]

theorem countPlaces_eq_zero {f : List α → α → Bool}
    (h : ∀ n a, l[n]? = some a → f (l.take n) a = false) : countPlaces f l = 0 := by
  refine List.countP_eq_zero.mpr fun n _ => ?_
  cases ha : l[n]? with
  | none => simp
  | some a => simp [h n a ha]

/-- Where it holds nowhere later on, the places of a beginning are all that there are. -/
theorem countPlaces_take {f : List α → α → Bool} (n : Nat)
    (h : ∀ k a, n ≤ k → l[k]? = some a → f (l.take k) a = false) :
    countPlaces f (l.take n) = countPlaces f l := by
  have hrest : countPlaces (fun v b => f (l.take n ++ v) b) (l.drop n) = 0 := by
    refine countPlaces_eq_zero fun k a ha => ?_
    rw [List.getElem?_drop] at ha
    rw [← List.take_add]
    exact h _ a (Nat.le_add_right n k) ha
  have hsplit := countPlaces_append f (l.take n) (l.drop n)
  rw [List.take_append_drop, hrest] at hsplit
  exact hsplit.symm

end AutoReset
