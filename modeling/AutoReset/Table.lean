/-!
# Tables: values under names

Scripts speak of registers, blocks, variables and allocators by name. A
`AutoReset.Table` is the finite map behind each of these: a list of rows in which
a name is looked up from the front. Setting a name drops its older rows, so a
table never holds two rows for one name, and reading back what was set needs no
side condition (`AutoReset.Table.get?_set_self`, `AutoReset.Table.get?_set_of_ne`).
-/

namespace AutoReset

/-- A finite map from names to values, newest row first. -/
structure Table (α : Type) where
  /-- The rows, each a name and its value. -/
  rows : List (String × α) := []

namespace Table

variable {α : Type}

/-- The table without rows. -/
def empty : Table α := ⟨[]⟩

/-- The value under a name. -/
def get? (t : Table α) (name : String) : Option α :=
  t.rows.lookup name

/-- Takes a name out of the table. -/
def erase (t : Table α) (name : String) : Table α :=
  ⟨t.rows.filter fun row => row.1 != name⟩

/-- Puts a value under a name, in place of an older one. -/
def set (t : Table α) (name : String) (a : α) : Table α :=
  ⟨(name, a) :: (t.erase name).rows⟩

/-- Keeps the rows whose value passes the test. -/
def keep (t : Table α) (p : α → Bool) : Table α :=
  ⟨t.rows.filter fun row => p row.2⟩

/-- Gives each value another, and drops the rows whose value gets none. -/
def filterMap {β : Type} (t : Table α) (f : α → Option β) : Table β :=
  ⟨t.rows.filterMap fun row => (f row.2).map (row.1, ·)⟩

/-- The values of a table, newest first. -/
def values (t : Table α) : List α :=
  t.rows.map Prod.snd

/-! ### Reading back -/

@[simp] theorem get?_empty (name : String) : (empty : Table α).get? name = none := rfl

@[simp] theorem get?_set_self (t : Table α) (name : String) (a : α) :
    (t.set name a).get? name = some a := by
  simp [get?, set]

theorem get?_erase_of_ne (t : Table α) {name other : String} (h : other ≠ name) :
    (t.erase name).get? other = t.get? other := by
  obtain ⟨rows⟩ := t
  simp only [get?, erase]
  induction rows with
  | nil => rfl
  | cons row rows ih =>
    obtain ⟨key, a⟩ := row
    by_cases hk : key = name
    · subst hk
      have ho : (other == key) = false := by simpa using h
      simp [List.lookup_cons, ho, ih]
    · by_cases ho : other = key
      · subst ho
        simp [hk]
      · have ho' : (other == key) = false := by simpa using ho
        simp [hk, List.lookup_cons, ho', ih]

@[simp] theorem get?_erase_self (t : Table α) (name : String) :
    (t.erase name).get? name = none := by
  obtain ⟨rows⟩ := t
  simp only [get?, erase]
  induction rows with
  | nil => rfl
  | cons row rows ih =>
    obtain ⟨key, a⟩ := row
    by_cases hk : key = name
    · subst hk
      simp [ih]
    · have ho' : (name == key) = false := by simpa using fun h => hk h.symm
      simp [hk, List.lookup_cons, ho', ih]

theorem get?_set_of_ne (t : Table α) {name other : String} (a : α) (h : other ≠ name) :
    (t.set name a).get? other = t.get? other := by
  have ho : (other == name) = false := by simpa using h
  rw [← get?_erase_of_ne t h]
  simp [get?, set, List.lookup_cons, ho]

end Table

end AutoReset
