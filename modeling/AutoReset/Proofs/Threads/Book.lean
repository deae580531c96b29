import AutoReset.Proofs.Places
import AutoReset.Proofs.Threads.Exclusion
import AutoReset.Proofs.Threads.Outline
/-!
# The calls of a history

A history is a list of marks, and the marks of one call lie far apart in it. The
**book** of a history (`AutoReset.Threads.Book.ofHistory`) puts them together again:
it has one **episode** for each call that was made, with the times at which the call was
made, decided and returned.

The book is kept by reading the history once, from its beginning; for each thread it has
the episode that is open, if there is one. Read along a run, the open episodes are the
seats of the room (`AutoReset.Threads.Book.Keeps`): who is in a call has an open episode,
and it is decided if the seat is one that owes an answer. This is why a mark always finds
the episode to which it belongs, and so the book tells no more and no less than the
history (`AutoReset.Threads.Book.Tells`).
-/

namespace AutoReset.Threads

/-! ### Episodes -/

/-- One call, from its making to its return. A time is the number of a step. -/
structure Episode (t : Nat) where
  /-- Who made the call. -/
  thread : Fin t
  /-- What was called. -/
  call : Call
  /-- When it was made. -/
  made : Nat
  /-- When it was decided, and with what answer. -/
  decided : Option (Nat × Reply) := none
  /-- When it returned, and with what answer. -/
  returned : Option (Nat × Reply) := none
  deriving DecidableEq

namespace Episode

variable {t : Nat}

/-- Was the call decided before this time? -/
def decidedBy (n : Nat) (x : Episode t) : Bool := x.decided.any (·.1 < n)

/-- What was called and what was the answer; none if that is open. -/
def outcome (x : Episode t) : Option (Call × Reply) := x.decided.map fun d => (x.call, d.2)

/-- Did the call return before the other one was made? -/
def Precedes (x y : Episode t) : Prop := ∃ n r, x.returned = some (n, r) ∧ n < y.made

/-- **The marks of an episode stand in the history**, in their order: a call is made, then
decided, and then it returns, with the answer with which it was decided. -/
structure Recorded (h : List (Mark t)) (x : Episode t) : Prop where
  /-- It was made then. -/
  made : h[x.made]? = some (.made x.thread x.call)
  /-- If it was decided, then after that. -/
  decided {k : Nat} {r : Reply} : x.decided = some (k, r) →
    x.made < k ∧ h[k]? = some (.decided x.thread x.call r)
  /-- If it returned, then later still. -/
  returned {n : Nat} {r : Reply} : x.returned = some (n, r) →
    (∃ k, k < n ∧ x.decided = some (k, r)) ∧ h[n]? = some (.returned x.thread x.call r)

end Episode

/-- A mark of a longer history is a mark of the shorter one or the last. -/
theorem mark_snoc {t n : Nat} {h : List (Mark t)} {x y : Mark t} :
    (h ++ [x])[n]? = some y ↔ h[n]? = some y ∨ (n = h.length ∧ x = y) :=
  getElem?_snoc

theorem lt_of_mark {t n : Nat} {h : List (Mark t)} {x : Mark t} (hx : h[n]? = some x) :
    n < h.length :=
  (List.getElem?_eq_some_iff.mp hx).1

theorem Episode.Recorded.snoc {t : Nat} {h : List (Mark t)} {x : Episode t} (hx : x.Recorded h)
    (y : Mark t) : x.Recorded (h ++ [y]) where
  made := mark_snoc.mpr (Or.inl hx.made)
  decided hd := ⟨(hx.decided hd).1, mark_snoc.mpr (Or.inl (hx.decided hd).2)⟩
  returned hr := ⟨(hx.returned hr).1, mark_snoc.mpr (Or.inl (hx.returned hr).2)⟩

/-! ### Books -/

/-- The calls of a history. -/
structure Book (t : Nat) where
  /-- The calls that have not returned: one for each thread, or none. -/
  current : Fin t → Option (Episode t) := fun _ => none
  /-- The calls that have returned. -/
  past : List (Episode t) := []

namespace Book

variable {t : Nat}

instance : Membership (Episode t) (Book t) where
  mem b x := x ∈ b.past ∨ ∃ θ, b.current θ = some x

/-- Puts an episode in the place of the open one of a thread. -/
def put (b : Book t) (θ : Fin t) (x : Episode t) : Book t :=
  { b with current := Function.update b.current θ (some x) }

/-- Closes the open episode of a thread, and files this one. -/
def file (b : Book t) (θ : Fin t) (x : Episode t) : Book t where
  current := Function.update b.current θ none
  past := b.past ++ [x]

section Setters

variable (b : Book t) {θ η : Fin t} (x : Episode t)

@[simp] theorem current_put_self : (b.put θ x).current θ = some x := Function.update_self ..

theorem current_put_of_ne (h : η ≠ θ) : (b.put θ x).current η = b.current η :=
  Function.update_of_ne h ..

@[simp] theorem current_file_self : (b.file θ x).current θ = none := Function.update_self ..

theorem current_file_of_ne (h : η ≠ θ) : (b.file θ x).current η = b.current η :=
  Function.update_of_ne h ..

end Setters

/-- Reads one mark. -/
def note (b : Book t) (n : Nat) : Mark t → Book t
  | .made θ c => b.put θ { thread := θ, call := c, made := n }
  | .decided θ _ r =>
    match b.current θ with
    | some x => b.put θ { x with decided := some (n, r) }
    | none => b
  | .returned θ _ r =>
    match b.current θ with
    | some x => b.file θ { x with returned := some (n, r) }
    | none => b
  | .moved _ | .woke _ | .nothing => b

/-- The book of a history. -/
def ofHistory (h : List (Mark t)) : Book t :=
  h.zipIdx.foldl (fun b x => b.note x.2 x.1) {}

theorem ofHistory_snoc (h : List (Mark t)) (x : Mark t) :
    ofHistory (h ++ [x]) = (ofHistory h).note h.length x := by
  simp [ofHistory, List.zipIdx_append]

/-- **The book tells what the history tells.** -/
structure Tells (b : Book t) (h : List (Mark t)) : Prop where
  /-- All that the book says stands in the history. -/
  recorded {x : Episode t} : x ∈ b → x.Recorded h
  /-- Every call that was made is in the book. -/
  made {n : Nat} {θ : Fin t} {c : Call} : h[n]? = some (.made θ c) → ∃ x ∈ b, x.made = n
  /-- Every decision is in the book. -/
  decided {n : Nat} {θ : Fin t} {c : Call} {r : Reply} :
    h[n]? = some (.decided θ c r) → ∃ x ∈ b, x.decided = some (n, r)
  /-- Every return is in the book. -/
  returned {n : Nat} {θ : Fin t} {c : Call} {r : Reply} :
    h[n]? = some (.returned θ c r) → ∃ x ∈ b, x.returned = some (n, r)
  /-- No call is in the book twice. -/
  sole {x y : Episode t} : x ∈ b → y ∈ b → x.made = y.made → x = y
  /-- No decision is in the book twice. -/
  alone {x y : Episode t} {n : Nat} {r s : Reply} : x ∈ b → y ∈ b →
    x.decided = some (n, r) → y.decided = some (n, s) → x = y

/-! ### The open episodes are the seats -/

end Book

/-- What an open episode and a seat have in common: the call, and the answer that it has. -/
def Episode.entry {t : Nat} (x : Episode t) : Call × Option Reply :=
  (x.call, x.decided.map Prod.snd)

/-- What a seat and an open episode have in common. -/
def Seat.entry (s : Seat) : Call × Option Reply := (s.call, s.stage.answer?)

/-- It is a part of the outline of the seat. -/
theorem Seat.entry_congr {x y : Option Seat} (h : x.map Seat.outline = y.map Seat.outline) :
    x.map Seat.entry = y.map Seat.entry := by
  have hpart : ∀ z : Option Seat,
      z.map Seat.entry = (z.map Seat.outline).map fun o => (o.1, o.2.2) := by
    intro z
    rw [Option.map_map]
    rfl
  rw [hpart, hpart, h]

namespace Book

variable {t : Nat} {b : Book t} {R S : Room t} {h : List (Mark t)} {z : Mark t}

/-- **The book is kept along a run**: the open episodes are those of the threads that have
a seat. -/
structure Keeps (b : Book t) (R : Room t) : Prop where
  /-- Who has a seat has an open episode, for the same call and with the same answer. -/
  entry (θ : Fin t) : (b.current θ).map Episode.entry = (R.seat θ).map Seat.entry
  /-- An open episode is one of its thread, and has not returned. -/
  own {θ : Fin t} {x : Episode t} : b.current θ = some x → x.thread = θ ∧ x.returned = none
  /-- An episode that was filed has returned. -/
  closed {x : Episode t} : x ∈ b.past → x.returned ≠ none

theorem keeps_empty (hR : R.Empty) : Keeps {} R where
  entry θ := by rw [hR.seat]; rfl
  own := nofun
  closed := nofun

theorem tells_nil : Tells ({} : Book t) [] where
  recorded := by rintro x (hx | ⟨θ, hx⟩) <;> cases hx
  made := nofun
  decided := nofun
  returned := nofun
  sole := by rintro x y (hx | ⟨θ, hx⟩) <;> cases hx
  alone := by rintro x y n r s (hx | ⟨θ, hx⟩) <;> cases hx

/-- Who has a seat has an open episode. -/
theorem Keeps.exists_current (hk : b.Keeps R) {θ : Fin t} {s : Seat} (hs : R.seat θ = some s) :
    ∃ x, b.current θ = some x ∧ x.thread = θ ∧ x.returned = none ∧ x.call = s.call ∧
      x.decided.map Prod.snd = s.stage.answer? := by
  have hout := hk.entry θ
  rw [hs] at hout
  obtain ⟨x, hx, hxs⟩ := Option.map_eq_some_iff.mp hout
  obtain ⟨hcall, hanswer⟩ := Prod.mk.inj hxs
  exact ⟨x, hx, (hk.own hx).1, (hk.own hx).2, hcall, hanswer⟩

theorem Keeps.current_eq_none (hk : b.Keeps R) {θ : Fin t} (hs : R.seat θ = none) :
    b.current θ = none := by
  have hout := hk.entry θ
  rwa [hs, Option.map_none, Option.map_eq_none_iff] at hout

/-- One thread takes another seat, and its open episode is exchanged with it. -/
theorem Keeps.put (hk : b.Keeps R) {θ : Fin t} {x : Episode t} {u : Seat}
    (hS : S.seat = Function.update R.seat θ (some u)) (hx : x.thread = θ ∧ x.returned = none)
    (hu : x.entry = u.entry) : (b.put θ x).Keeps S where
  entry η := by
    rw [hS]
    by_cases hη : η = θ
    · subst hη
      rw [current_put_self, Function.update_self, Option.map_some, Option.map_some, hu]
    · rw [current_put_of_ne _ _ hη, Function.update_of_ne hη]
      exact hk.entry η
  own {η y} hy := by
    by_cases hη : η = θ
    · subst hη
      rw [current_put_self] at hy
      cases hy
      exact hx
    · rw [current_put_of_ne _ _ hη] at hy
      exact hk.own hy
  closed := hk.closed

/-- One thread gives up its seat, and its open episode is closed. -/
theorem Keeps.file (hk : b.Keeps R) {θ : Fin t} {x : Episode t}
    (hS : S.seat = Function.update R.seat θ none) (hx : x.returned ≠ none) :
    (b.file θ x).Keeps S where
  entry η := by
    rw [hS]
    by_cases hη : η = θ
    · subst hη
      rw [current_file_self, Function.update_self]
      rfl
    · rw [current_file_of_ne _ _ hη, Function.update_of_ne hη]
      exact hk.entry η
  own {η y} hy := by
    by_cases hη : η = θ
    · subst hη
      rw [current_file_self] at hy
      cases hy
    · rw [current_file_of_ne _ _ hη] at hy
      exact hk.own hy
  closed {y} hy := by
    rcases List.mem_append.mp hy with hy | hy
    · exact hk.closed hy
    · rwa [List.mem_singleton.mp hy]

/-! ### One step -/

/-- A decision finds an open episode that was not decided. -/
theorem Keeps.current_of_inside (hk : b.Keeps R) {θ : Fin t} {c : Call} {i : Instant}
    (hs : R.seat θ = some ⟨c, i, .inside⟩) :
    ∃ x, b.current θ = some x ∧ x.thread = θ ∧ x.returned = none ∧ x.call = c ∧
      x.decided = none := by
  obtain ⟨x, hx, hθ, hr, hc, hd⟩ := hk.exists_current hs
  exact ⟨x, hx, hθ, hr, hc, Option.map_eq_none_iff.mp hd⟩

/-- A return finds an open episode that was decided with this answer. -/
theorem Keeps.current_of_leaving (hk : b.Keeps R) {θ : Fin t} {c : Call} {i : Instant} {r : Reply}
    (hs : R.seat θ = some ⟨c, i, .leaving r⟩) :
    ∃ x k, b.current θ = some x ∧ x.thread = θ ∧ x.returned = none ∧ x.call = c ∧
      x.decided = some (k, r) := by
  obtain ⟨x, hx, hθ, hr, hc, hd⟩ := hk.exists_current hs
  obtain ⟨⟨k, r⟩, hk, rfl⟩ := Option.map_eq_some_iff.mp hd
  exact ⟨x, k, hx, hθ, hr, hc, hk⟩

/-- **A step and the reading of its mark keep the book.** -/
theorem Keeps.note (hk : b.Keeps R) (hx : R.Step z S) (n : Nat) : (b.note n z).Keeps S := by
  cases hx.turn with
  | made θ c _ _ hS => exact hk.put hS ⟨rfl, rfl⟩ rfl
  | @decided θ c i r stage hs hr _ hS =>
    obtain ⟨x, hcur, hθ, hret, hcall, -⟩ := hk.current_of_inside hs
    simp only [Book.note, hcur]
    exact hk.put hS ⟨hθ, hret⟩ (Prod.ext hcall hr.symm)
  | returned hs _ hS =>
    obtain ⟨x, k, hcur, -⟩ := hk.current_of_leaving hs
    simp only [Book.note, hcur]
    exact hk.file hS nofun
  | silent hz _ hs =>
    have hsame : b.note n z = b := by
      cases z with
      | moved _ | woke _ | nothing => rfl
      | _ => cases hz
    rw [hsame]
    exact ⟨fun θ => (hk.entry θ).trans (Seat.entry_congr (hs θ)).symm, hk.own, hk.closed⟩

/-- What is in a book after a call was made. -/
theorem mem_put_of_none {θ : Fin t} {x y : Episode t} (hcur : b.current θ = none) :
    y ∈ b.put θ x ↔ y = x ∨ y ∈ b := by
  constructor
  · rintro (hy | ⟨η, hy⟩)
    · exact Or.inr (Or.inl hy)
    · by_cases hη : η = θ
      · subst hη
        rw [current_put_self] at hy
        exact Or.inl (Option.some.inj hy).symm
      · rw [current_put_of_ne _ _ hη] at hy
        exact Or.inr (Or.inr ⟨η, hy⟩)
  · rintro (rfl | hy | ⟨η, hy⟩)
    · exact Or.inr ⟨θ, current_put_self ..⟩
    · exact Or.inl hy
    · have hη : η ≠ θ := by
        rintro rfl
        rw [hcur] at hy
        cases hy
      exact Or.inr ⟨η, by rwa [current_put_of_ne _ _ hη]⟩

/-- An episode is open in one place only. -/
theorem Keeps.mem_ne_iff (hk : b.Keeps R) {θ : Fin t} {x y : Episode t}
    (hcur : b.current θ = some x) :
    (y ∈ b ∧ y ≠ x) ↔ y ∈ b.past ∨ ∃ η, η ≠ θ ∧ b.current η = some y := by
  constructor
  · rintro ⟨hy | ⟨η, hy⟩, hne⟩
    · exact Or.inl hy
    · refine Or.inr ⟨η, ?_, hy⟩
      rintro rfl
      exact hne (Option.some.inj (hy.symm.trans hcur))
  · rintro (hy | ⟨η, hη, hy⟩)
    · refine ⟨Or.inl hy, ?_⟩
      rintro rfl
      exact hk.closed hy (hk.own hcur).2
    · refine ⟨Or.inr ⟨η, hy⟩, ?_⟩
      rintro rfl
      exact hη ((hk.own hy).1.symm.trans (hk.own hcur).1)

/-- What is in a book after an open episode was exchanged. -/
theorem Keeps.mem_put (hk : b.Keeps R) {θ : Fin t} {x x' y : Episode t}
    (hcur : b.current θ = some x) : y ∈ b.put θ x' ↔ y = x' ∨ (y ∈ b ∧ y ≠ x) := by
  rw [hk.mem_ne_iff hcur]
  constructor
  · rintro (hy | ⟨η, hy⟩)
    · exact Or.inr (Or.inl hy)
    · by_cases hη : η = θ
      · subst hη
        rw [current_put_self] at hy
        exact Or.inl (Option.some.inj hy).symm
      · rw [current_put_of_ne _ _ hη] at hy
        exact Or.inr (Or.inr ⟨η, hη, hy⟩)
  · rintro (rfl | hy | ⟨η, hη, hy⟩)
    · exact Or.inr ⟨θ, current_put_self ..⟩
    · exact Or.inl hy
    · exact Or.inr ⟨η, by rwa [current_put_of_ne _ _ hη]⟩

/-- What is in a book after an open episode was filed. -/
theorem Keeps.mem_file (hk : b.Keeps R) {θ : Fin t} {x x' y : Episode t}
    (hcur : b.current θ = some x) : y ∈ b.file θ x' ↔ y = x' ∨ (y ∈ b ∧ y ≠ x) := by
  rw [hk.mem_ne_iff hcur]
  constructor
  · rintro (hy | ⟨η, hy⟩)
    · rcases List.mem_append.mp hy with hy | hy
      · exact Or.inr (Or.inl hy)
      · exact Or.inl (List.mem_singleton.mp hy)
    · by_cases hη : η = θ
      · subst hη
        rw [current_file_self] at hy
        cases hy
      · rw [current_file_of_ne _ _ hη] at hy
        exact Or.inr (Or.inr ⟨η, hη, hy⟩)
  · rintro (rfl | hy | ⟨η, hη, hy⟩)
    · exact Or.inl (List.mem_append_right _ (List.mem_singleton_self _))
    · exact Or.inl (List.mem_append_left _ hy)
    · exact Or.inr ⟨η, by rwa [current_file_of_ne _ _ hη]⟩

/-- A mark of which the book need not know leaves the book true. -/
theorem Tells.snoc (ht : b.Tells h) (hm : ∀ θ c, z ≠ .made θ c)
    (hd : ∀ θ c r, z ≠ .decided θ c r) (hr : ∀ θ c r, z ≠ .returned θ c r) :
    b.Tells (h ++ [z]) where
  recorded hx := (ht.recorded hx).snoc z
  made hn := by
    rcases mark_snoc.mp hn with hn | ⟨-, rfl⟩
    · exact ht.made hn
    · exact absurd rfl (hm _ _)
  decided hn := by
    rcases mark_snoc.mp hn with hn | ⟨-, rfl⟩
    · exact ht.decided hn
    · exact absurd rfl (hd _ _ _)
  returned hn := by
    rcases mark_snoc.mp hn with hn | ⟨-, rfl⟩
    · exact ht.returned hn
    · exact absurd rfl (hr _ _ _)
  sole := ht.sole
  alone := ht.alone

/-- A new call, put into the book. -/
theorem Tells.made_snoc (ht : b.Tells h) {θ : Fin t} {c : Call} (hcur : b.current θ = none) :
    (b.note h.length (.made θ c)).Tells (h ++ [.made θ c]) := by
  have hmem : ∀ {y : Episode t}, y ∈ b.note h.length (.made θ c) ↔
      y = { thread := θ, call := c, made := h.length } ∨ y ∈ b := mem_put_of_none hcur
  have hold : ∀ {y : Episode t}, y ∈ b → y.made ≠ h.length :=
    fun hy => Nat.ne_of_lt (lt_of_mark (ht.recorded hy).made)
  constructor
  case recorded =>
    intro y hy
    rcases hmem.mp hy with rfl | hy
    · exact ⟨mark_snoc.mpr (Or.inr ⟨rfl, rfl⟩), nofun, nofun⟩
    · exact (ht.recorded hy).snoc _
  case made =>
    intro n η d hn
    rcases mark_snoc.mp hn with hn | ⟨rfl, -⟩
    · obtain ⟨y, hy, hyn⟩ := ht.made hn
      exact ⟨y, hmem.mpr (Or.inr hy), hyn⟩
    · exact ⟨_, hmem.mpr (Or.inl rfl), rfl⟩
  case decided =>
    intro n η d r hn
    rcases mark_snoc.mp hn with hn | ⟨-, hz⟩
    · obtain ⟨y, hy, hyn⟩ := ht.decided hn
      exact ⟨y, hmem.mpr (Or.inr hy), hyn⟩
    · cases hz
  case returned =>
    intro n η d r hn
    rcases mark_snoc.mp hn with hn | ⟨-, hz⟩
    · obtain ⟨y, hy, hyn⟩ := ht.returned hn
      exact ⟨y, hmem.mpr (Or.inr hy), hyn⟩
    · cases hz
  case sole =>
    intro x y hx hy hxy
    rcases hmem.mp hx with rfl | hx <;> rcases hmem.mp hy with rfl | hy
    · rfl
    · exact absurd hxy.symm (hold hy)
    · exact absurd hxy (hold hx)
    · exact ht.sole hx hy hxy
  case alone =>
    intro x y n r s hx hy hdx hdy
    rcases hmem.mp hx with rfl | hx <;> rcases hmem.mp hy with rfl | hy
    · rfl
    · cases hdx
    · cases hdy
    · exact ht.alone hx hy hdx hdy

/-- **An episode is exchanged for one that tells the next mark as well**, and nothing else. -/
theorem Tells.exchange (ht : b.Tells h) {b' : Book t} {x x' : Episode t}
    (hmem : ∀ {y : Episode t}, y ∈ b' ↔ y = x' ∨ (y ∈ b ∧ y ≠ x)) (hx : x ∈ b)
    (hrec : x'.Recorded (h ++ [z])) (hmade : x'.made = x.made) (hret : x.returned = none)
    (hold : ∀ d, x.decided = some d → x'.decided = some d)
    (hnew : ∀ k r, x'.decided = some (k, r) → k = h.length ∨ x.decided = some (k, r))
    (hm : ∀ θ c, z ≠ .made θ c)
    (hd : ∀ θ c r, z = .decided θ c r → x'.decided = some (h.length, r))
    (hr : ∀ θ c r, z = .returned θ c r → x'.returned = some (h.length, r)) :
    b'.Tells (h ++ [z]) := by
  -- what was found in the old book is found in the new one, in `x'` if it was in `x`
  have hself : x' ∈ b' := hmem.mpr (Or.inl rfl)
  have hkeep : ∀ {y : Episode t}, y ∈ b → y ≠ x → y ∈ b' :=
    fun hy hne => hmem.mpr (Or.inr ⟨hy, hne⟩)
  -- no other episode was decided when this one is now decided
  have hother : ∀ {y : Episode t} {n : Nat} {r s : Reply}, y ∈ b → y ≠ x →
      x'.decided = some (n, r) → y.decided ≠ some (n, s) := by
    intro y n r s hy hne hdx hdy
    rcases hnew _ _ hdx with rfl | hdx
    · exact Nat.lt_irrefl _ (lt_of_mark ((ht.recorded hy).decided hdy).2)
    · exact hne (ht.alone hy hx hdy hdx)
  constructor
  case recorded =>
    intro y hy
    rcases hmem.mp hy with rfl | ⟨hy, -⟩
    · exact hrec
    · exact (ht.recorded hy).snoc z
  case made =>
    intro n η d hn
    rcases mark_snoc.mp hn with hn | ⟨-, rfl⟩
    · obtain ⟨y, hy, hyn⟩ := ht.made hn
      by_cases hne : y = x
      · exact ⟨x', hself, by rw [hmade, ← hne, hyn]⟩
      · exact ⟨y, hkeep hy hne, hyn⟩
    · exact absurd rfl (hm _ _)
  case decided =>
    intro n η d r hn
    rcases mark_snoc.mp hn with hn | ⟨rfl, hz⟩
    · obtain ⟨y, hy, hyn⟩ := ht.decided hn
      by_cases hne : y = x
      · exact ⟨x', hself, hold _ (hne ▸ hyn)⟩
      · exact ⟨y, hkeep hy hne, hyn⟩
    · exact ⟨x', hself, hd _ _ _ hz⟩
  case returned =>
    intro n η d r hn
    rcases mark_snoc.mp hn with hn | ⟨rfl, hz⟩
    · obtain ⟨y, hy, hyn⟩ := ht.returned hn
      by_cases hne : y = x
      · rw [hne, hret] at hyn
        cases hyn
      · exact ⟨y, hkeep hy hne, hyn⟩
    · exact ⟨x', hself, hr _ _ _ hz⟩
  case sole =>
    intro y w hy hw hyw
    rcases hmem.mp hy with rfl | ⟨hy, hyx⟩ <;> rcases hmem.mp hw with rfl | ⟨hw, hwx⟩
    · rfl
    · exact absurd (ht.sole hw hx (hyw.symm.trans hmade)) hwx
    · exact absurd (ht.sole hy hx (hyw.trans hmade)) hyx
    · exact ht.sole hy hw hyw
  case alone =>
    intro y w n r s hy hw hdy hdw
    rcases hmem.mp hy with rfl | ⟨hy, hyx⟩ <;> rcases hmem.mp hw with rfl | ⟨hw, hwx⟩
    · rfl
    · exact absurd hdw (hother hw hwx hdy)
    · exact absurd hdy (hother hy hyx hdw)
    · exact ht.alone hy hw hdy hdw

/-- **A step leaves the book true**, when its mark was read. -/
theorem Tells.note (ht : b.Tells h) (hk : b.Keeps R) (hx : R.Step z S) :
    (b.note h.length z).Tells (h ++ [z]) := by
  cases hx.turn with
  | made θ c free _ _ => exact ht.made_snoc (hk.current_eq_none free)
  | decided hs _ _ _ =>
    obtain ⟨x, hcur, rfl, hret, rfl, hdec⟩ := hk.current_of_inside hs
    have hmem : x ∈ b := Or.inr ⟨_, hcur⟩
    have hold := ht.recorded hmem
    simp only [Book.note, hcur]
    refine ht.exchange (hk.mem_put hcur) hmem ⟨(hold.snoc _).made, ?_, ?_⟩ rfl hret
      (by simp [hdec]) ?_ nofun ?_ nofun
    · rintro k s ⟨⟩
      exact ⟨lt_of_mark hold.made, mark_snoc.mpr (Or.inr ⟨rfl, rfl⟩)⟩
    · intro n s hn
      rw [hret] at hn
      cases hn
    · rintro k s ⟨⟩
      exact Or.inl rfl
    · rintro η d s ⟨⟩
      rfl
  | returned hs _ _ =>
    obtain ⟨x, k, hcur, rfl, hret, rfl, hdec⟩ := hk.current_of_leaving hs
    have hmem : x ∈ b := Or.inr ⟨_, hcur⟩
    have hold := ht.recorded hmem
    simp only [Book.note, hcur]
    refine ht.exchange (hk.mem_file hcur) hmem ⟨(hold.snoc _).made, (hold.snoc _).decided, ?_⟩ rfl
      hret (fun _ => id) (fun _ _ => Or.inr) nofun nofun ?_
    · rintro n s ⟨⟩
      exact ⟨⟨k, lt_of_mark (hold.decided hdec).2, hdec⟩, mark_snoc.mpr (Or.inr ⟨rfl, rfl⟩)⟩
    · rintro η d s ⟨⟩
      rfl
  | silent hz _ _ =>
    cases z with
    | moved _ | woke _ | nothing => exact ht.snoc nofun nofun nofun
    | _ => cases hz

/-- **The book of a run is true**, and kept to its end. -/
theorem tells_of_trace (htr : R.Trace h S) (hR : R.Empty) :
    (ofHistory h).Keeps S ∧ (ofHistory h).Tells h := by
  induction htr with
  | nil => exact ⟨keeps_empty hR, tells_nil⟩
  | @snoc h z S T _ hx ih =>
    obtain ⟨hk, ht⟩ := ih
    rw [ofHistory_snoc]
    exact ⟨hk.note hx _, ht.note hk hx⟩

end Book

end AutoReset.Threads
