import AutoReset.Proofs.Threads.Room
/-!
# Runs, their beginnings and their histories

The history of a run has one mark for each step
(`AutoReset.Threads.Machine.length_history`). So the number of a step is a time: the
machine as it was at time `n` is the one that the first `n` steps come to, and the mark
at time `n` is that of the step made there
(`AutoReset.Threads.Machine.exists_step_of_history`).
-/

namespace AutoReset.Threads

namespace Machine

variable {σ : Type} {t m g : Nat} {p : Program σ m g} {μ ν κ : Machine σ t m g} {e : Fin m}

/-- A run is a beginning and what comes after it. -/
theorem steps_append {as bs : List (Action t)} :
    μ.steps p (as ++ bs) = (μ.steps p as).bind fun κ => κ.steps p bs := by
  induction as generalizing μ with
  | nil => rfl
  | cons a as ih =>
    simp only [List.cons_append, steps]
    cases μ.step p a with
    | none => rfl
    | some κ => exact ih

theorem steps_append_of_steps {as bs : List (Action t)} (h : μ.steps p as = some κ) :
    μ.steps p (as ++ bs) = κ.steps p bs := by
  rw [steps_append, h]
  rfl

theorem history_append {as bs : List (Action t)} (h : μ.steps p as = some κ) :
    μ.history p e (as ++ bs) = μ.history p e as ++ κ.history p e bs := by
  induction as generalizing μ with
  | nil =>
    cases h
    rfl
  | cons a as ih =>
    simp only [steps] at h
    simp only [List.cons_append, history]
    cases ha : μ.step p a with
    | none => simp [ha] at h
    | some μ' =>
      simp only [ha] at h
      simp [ih h]

/-- **One mark for each step.** -/
theorem length_history {as : List (Action t)} (h : μ.steps p as = some ν) :
    (μ.history p e as).length = as.length := by
  induction as generalizing μ with
  | nil => rfl
  | cons a as ih =>
    simp only [steps] at h
    simp only [history]
    cases ha : μ.step p a with
    | none => simp [ha] at h
    | some μ' =>
      simp only [ha] at h
      simp [ih h]

/-- Every beginning of a run is a run. -/
theorem exists_steps_take {as : List (Action t)} (h : μ.steps p as = some ν) (n : Nat) :
    ∃ κ, μ.steps p (as.take n) = some κ ∧ κ.steps p (as.drop n) = some ν := by
  rw [← List.take_append_drop n as, steps_append] at h
  exact Option.bind_eq_some_iff.mp h

/-- **The history of a beginning is a beginning of the history.** -/
theorem history_take {as : List (Action t)} (h : μ.steps p as = some ν) (n : Nat) :
    μ.history p e (as.take n) = (μ.history p e as).take n := by
  obtain ⟨κ, hκ, -⟩ := exists_steps_take h n
  have hlen : (μ.history p e (as.take n)).length = min n as.length := by
    rw [length_history hκ, List.length_take]
  by_cases hn : n ≤ as.length
  · conv_rhs => rw [← List.take_append_drop n as, history_append hκ]
    rw [List.take_left' (by omega)]
  · rw [List.take_of_length_le (by omega), List.take_of_length_le]
    rw [length_history h]
    omega

/-- **Step `j` of a run**, with the machines before and after it. -/
structure StepAt (p : Program σ m g) (μ : Machine σ t m g) (as : List (Action t)) (j : Nat)
    (a : Action t) (κ κ' : Machine σ t m g) : Prop where
  /-- It is this action. -/
  action : as[j]? = some a
  /-- The steps before it come to this machine. -/
  before : μ.steps p (as.take j) = some κ
  /-- It leads from there to that one. -/
  step : κ.step p a = some κ'

variable {as : List (Action t)} {j : Nat} {a : Action t} {κ' : Machine σ t m g}

theorem StepAt.after (hs : μ.StepAt p as j a κ κ') : μ.steps p (as.take (j + 1)) = some κ' := by
  rw [List.take_add_one, hs.action, Option.toList_some, steps_append_of_steps hs.before]
  simp only [steps, hs.step]

theorem StepAt.lt (hs : μ.StepAt p as j a κ κ') : j < as.length :=
  (List.getElem?_eq_some_iff.mp hs.action).1

/-- **A run passes through each of its steps.** -/
theorem exists_stepAt (h : μ.steps p as = some ν) (hj : j < as.length) :
    ∃ κ κ', μ.StepAt p as j as[j] κ κ' := by
  obtain ⟨κ, hκ, hrest⟩ := exists_steps_take h j
  rw [List.drop_eq_getElem_cons hj] at hrest
  simp only [steps] at hrest
  cases ha : κ.step p as[j] with
  | none => simp [ha] at hrest
  | some κ' => exact ⟨κ, κ', List.getElem?_eq_getElem hj, hκ, ha⟩

/-- A step leaves its mark in the history. -/
theorem StepAt.history (hs : μ.StepAt p as j a κ κ') (h : μ.steps p as = some ν) (e : Fin m) :
    (μ.history p e as)[j]? = some (mark e κ κ' a) := by
  have hlen : (μ.history p e (as.take j)).length = j := by
    rw [length_history hs.before, List.length_take]
    have := hs.lt
    omega
  have hmark : (μ.history p e (as.take (j + 1)))[j]? = some (mark e κ κ' a) := by
    rw [List.take_add_one, hs.action, Option.toList_some, history_append hs.before,
      List.getElem?_append_right (by omega), hlen, Nat.sub_self]
    simp [Machine.history, hs.step]
  rw [history_take h] at hmark
  rwa [List.getElem?_take_of_lt (by omega)] at hmark

/-- **The mark at a time is that of the step made then.** -/
theorem exists_step_of_history {x : Mark t} (h : μ.steps p as = some ν)
    (hx : (μ.history p e as)[j]? = some x) :
    ∃ κ κ' a, μ.steps p (as.take j) = some κ ∧ κ.step p a = some κ' ∧ x = mark e κ κ' a := by
  have hlt : j < as.length := by
    rw [← length_history (e := e) h]
    exact (List.getElem?_eq_some_iff.mp hx).1
  obtain ⟨κ, κ', hat⟩ := exists_stepAt h hlt
  exact ⟨κ, κ', _, hat.before, hat.step, Option.some.inj (hx.symm.trans (hat.history h e))⟩

end Machine

end AutoReset.Threads
