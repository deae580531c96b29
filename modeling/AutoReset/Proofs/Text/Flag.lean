import AutoReset.Proofs.Text.Layout
/-!
# Flags told apart

A flag is a padded word: it stands in a field, with fill around it, and is cut to the precision. One
of the two words is longer by a letter, so it may have less fill in front of it, and the fill may be
one of its letters. Still the two differ in a character that both texts have
(`AutoReset.Text.Spec.exists_padded_flags`), and so neither is read as the other, whatever stands
behind it. Only a precision of zero leaves nothing to be told apart.
-/

namespace AutoReset.Text

/-! ### Words in a field -/

namespace Spec

variable {s : Spec}

/-- How many fill characters stand in front of a word of this length. -/
def lead (s : Spec) (length : Nat) : Nat :=
  let gap := s.width.toNat - length
  match s.align.getD .left with
  | .left => 0
  | .centre => gap / 2
  | .right => gap

/-- A word in a field has fill in front of it and behind it. -/
theorem exists_padded_eq (s : Spec) (text : List Char) : ∃ k,
    s.padded text =
      List.replicate (s.lead (s.cut text).length) s.fill ++
        (s.cut text ++ List.replicate k s.fill) := by
  unfold padded pad lead
  cases s.align.getD .left with
  | left => exact ⟨_, rfl⟩
  | centre => exact ⟨_, List.append_assoc _ _ _⟩
  | right => exact ⟨0, congrArg _ (List.append_nil _).symm⟩

/-- A word with one character more has as much fill in front of it, or one less. -/
theorem lead_eq_or (s : Spec) (n : Nat) :
    s.lead n = s.lead (n + 1) ∨ s.lead n = s.lead (n + 1) + 1 := by
  unfold lead
  cases s.align.getD .left <;> dsimp only <;> omega

/-- The two words for a flag begin with different letters, and the longer one is longer by one. -/
theorem exists_cut_flags (hprecision : s.precision ≠ some 0) : ∃ rest rest',
    s.cut "true".toList = 't' :: rest ∧ s.cut "false".toList = 'f' :: rest' ∧
      (rest'.length = rest.length ∨
        rest'.length = rest.length + 1 ∧ ∃ rest'', rest' = 'a' :: rest'') := by
  unfold cut
  cases hp : s.precision with
  | none => exact ⟨_, _, rfl, rfl, .inr ⟨rfl, _, rfl⟩⟩
  | some p =>
    have hpos : p.toNat ≠ 0 := fun h =>
      hprecision (hp.trans (congrArg some (UInt16.toNat_inj.mp h)))
    dsimp only
    match p.toNat, hpos with
    | 1, _ | 2, _ | 3, _ | 4, _ => exact ⟨_, _, rfl, rfl, .inl rfl⟩
    | n + 5, _ => exact ⟨_, _, rfl, rfl, .inr ⟨by simp, _, rfl⟩⟩

/-- **The two flags differ in a character**, unless nothing is written of them. It is the first
letter; but where the shorter flag has one fill character more in front of it, it may be that one,
or, if the flags are filled up with the first letter of the longer one, the next. -/
theorem exists_padded_flags (hprecision : s.precision ≠ some 0) : ∃ front c d rest rest',
    c ≠ d ∧ s.padded "true".toList = front ++ c :: rest ∧
      s.padded "false".toList = front ++ d :: rest' := by
  obtain ⟨rest, rest', hcut, hcut', hlength⟩ := exists_cut_flags hprecision
  obtain ⟨k, hk⟩ := s.exists_padded_eq "true".toList
  obtain ⟨k', hk'⟩ := s.exists_padded_eq "false".toList
  rw [hcut, List.length_cons] at hk
  rw [hcut', List.length_cons] at hk'
  have hsame : s.lead (rest.length + 1) = s.lead (rest'.length + 1) →
      ∃ front c d rest rest', c ≠ d ∧ s.padded "true".toList = front ++ c :: rest ∧
        s.padded "false".toList = front ++ d :: rest' := fun h =>
    ⟨_, 't', 'f', _, _, by decide, hk, h ▸ hk'⟩
  rcases hlength with hlength | ⟨hlength, rest'', rfl⟩
  · exact hsame (by rw [hlength])
  · rw [hlength] at hk' hsame
    rcases s.lead_eq_or (rest.length + 1) with hlead | hlead
    · exact hsame hlead
    · rw [hlead, List.replicate_succ', List.append_assoc] at hk
      by_cases hfill : s.fill = 'f'
      · rw [hfill] at hk hk'
        exact ⟨_ ++ ['f'], 't', 'a', rest ++ List.replicate k 'f', rest'' ++ List.replicate k' 'f',
          by decide, hk.trans (List.append_assoc _ _ _).symm,
          hk'.trans (List.append_assoc _ ['f'] _).symm⟩
      · exact ⟨_, s.fill, 'f', _, _, hfill, hk, hk'⟩

end Spec

/-! ### Reading -/

namespace Tree

variable {s : Spec}

/-- A flag stands on one line. -/
theorem newline_not_mem_flag (hfill : s.fill ≠ '\n') (b : Bool) :
    '\n' ∉ (Tree.flag b).render s := by
  obtain ⟨k, hk⟩ := s.exists_padded_eq (if b then "true" else "false").toList
  have hreplicate : ∀ k, '\n' ∉ List.replicate k s.fill := fun k h =>
    hfill (List.eq_of_mem_replicate h).symm
  have hcut : '\n' ∉ s.cut (if b then "true" else "false").toList := by
    have hword : '\n' ∉ (if b then "true" else "false").toList := by cases b <;> decide
    unfold Spec.cut
    cases s.precision with
    | none => exact hword
    | some p => exact fun h => hword (List.mem_of_mem_take h)
  rw [Tree.render, hk, List.mem_append, List.mem_append]
  rintro (h | h | h)
  · exact hreplicate _ h
  · exact hcut h
  · exact hreplicate k h

/-- A flag is not read as the other one. -/
theorem scan_flag_other (hfill : s.fill ≠ '\n') (hprecision : s.precision ≠ some 0)
    (d : Nat) (rest : List Char) :
    (Tree.flag true).scan s d (shift d ((Tree.flag false).render s) ++ rest) = none := by
  obtain ⟨front, x, y, tail, tail', hne, htrue, hfalse⟩ := Spec.exists_padded_flags hprecision
  rw [Tree.scan, shift_eq_self (newline_not_mem_flag hfill _),
    shift_eq_self (newline_not_mem_flag hfill _)]
  refine Reader.bind_of_none (if_neg fun h => hne ?_)
  rw [List.isPrefixOf_iff_prefix, Tree.render, Tree.render] at h
  have hprefix : front ++ x :: tail <+: front ++ (y :: (tail' ++ rest)) := by
    rw [← htrue, ← List.cons_append, ← List.append_assoc, ← hfalse]
    exact h
  exact (List.cons_prefix_cons.mp ((List.prefix_append_right_inj front).mp hprefix)).1

end Tree

end AutoReset.Text
