import AutoReset.Proofs.Threads.Linearization
/-!
# The course of one call

The book of a history says when a call was made, decided and returned. Here it is said
what lies between: from the step after it was made up to its return the call has a seat
(`AutoReset.Threads.Machine.exists_seat`), with the reading of the clock at
which it was made, and the seat holds an answer from the moment at which the call was
decided.

The link is that a book grows with its history. What the book of a beginning knows of a
call is what the book of the whole knows, up to the end of that beginning
(`AutoReset.Threads.Book.exists_continues`); and the open episodes of the beginning are
the seats at its end.

So a call works on a latch in the one stay that decides it, and nowhere else
(`AutoReset.Threads.Machine.worksOnlyAt`): however often its thread enters, sleeps and is
woken again, all of these steps leave every latch as it is.
-/

namespace AutoReset.Threads

/-! ### A book grows with its history -/

namespace Episode

variable {t : Nat} {x y z : Episode t}

/-- **What was known of a call is still known later.** -/
structure Continues (y x : Episode t) : Prop where
  /-- It is the same call. -/
  made : y.made = x.made
  /-- A decision stays as it was. -/
  decided {d : Nat × Reply} : x.decided = some d → y.decided = some d
  /-- A return stays as it was. -/
  returned {d : Nat × Reply} : x.returned = some d → y.returned = some d

theorem Continues.refl (x : Episode t) : x.Continues x := ⟨rfl, id, id⟩

theorem Continues.trans (h : z.Continues y) (h' : y.Continues x) : z.Continues x :=
  ⟨h.made.trans h'.made, fun hd => h.decided (h'.decided hd), fun hr => h.returned (h'.returned hr)⟩

/-- A call returns after it was decided. -/
theorem Recorded.lt_of_returned {h : List (Mark t)} (hx : x.Recorded h) {k n : Nat} {r s : Reply}
    (hd : x.decided = some (k, r)) (hn : x.returned = some (n, s)) : k < n := by
  obtain ⟨⟨k', hk', hd'⟩, -⟩ := hx.returned hn
  cases hd.symm.trans hd'
  exact hk'

end Episode

namespace Book

variable {t : Nat} {b : Book t} {R S : Room t} {h h' : List (Mark t)} {z : Mark t} {x y : Episode t}

/-- Exchanging one episode for one that continues it forgets nothing. -/
theorem exists_continues_of_exchange {b' : Book t} {u v : Episode t}
    (hmem : ∀ {y : Episode t}, y ∈ b' ↔ y = v ∨ (y ∈ b ∧ y ≠ u)) (hv : v.Continues u)
    (hx : x ∈ b) : ∃ y ∈ b', y.Continues x := by
  by_cases hxu : x = u
  · exact ⟨v, hmem.mpr (Or.inl rfl), hxu ▸ hv⟩
  · exact ⟨x, hmem.mpr (Or.inr ⟨hx, hxu⟩), .refl x⟩

/-- **Reading one mark more forgets nothing.** -/
theorem Keeps.exists_continues (hk : b.Keeps R) (hz : R.Step z S) (n : Nat) (hx : x ∈ b) :
    ∃ y ∈ b.note n z, y.Continues x := by
  cases hz.turn with
  | made θ c free _ _ =>
    exact ⟨x, (mem_put_of_none (hk.current_eq_none free)).mpr (Or.inr hx), .refl x⟩
  | decided hs _ _ _ =>
    obtain ⟨u, hcur, -, -, -, hdec⟩ := hk.current_of_inside hs
    simp only [Book.note, hcur]
    exact exists_continues_of_exchange (hk.mem_put hcur) ⟨rfl, by simp [hdec], id⟩ hx
  | returned hs _ _ =>
    obtain ⟨u, k, hcur, -, hret, -, -⟩ := hk.current_of_leaving hs
    simp only [Book.note, hcur]
    exact exists_continues_of_exchange (hk.mem_file hcur) ⟨rfl, id, by simp [hret]⟩ hx
  | silent hsilent _ _ =>
    cases z with
    | moved _ | woke _ | nothing => exact ⟨x, hx, .refl x⟩
    | _ => cases hsilent

/-- The book of a run forgets nothing of the book of its beginning. -/
theorem exists_continues (hR : R.Empty) {S T : Room t} (htr : R.Trace h S) (htr' : S.Trace h' T)
    (hx : x ∈ ofHistory h) : ∃ y ∈ ofHistory (h ++ h'), y.Continues x := by
  induction htr' with
  | nil => exact ⟨x, by rwa [List.append_nil], .refl x⟩
  | @snoc k z T U htr' hz ih =>
    obtain ⟨y, hy, hyx⟩ := ih
    have hk := (tells_of_trace (htr.append htr') hR).1
    obtain ⟨w, hw, hwy⟩ := hk.exists_continues hz (h ++ k).length hy
    exact ⟨w, by rwa [← List.append_assoc, ofHistory_snoc], hwy.trans hyx⟩

/-- **A call that is made in the beginning of a run and does not return there is open at its
end**, and decided if it was decided by then. -/
theorem exists_current (hR : R.Empty) {S T : Room t} (htr : R.Trace h S) (htr' : S.Trace h' T)
    (hx : x ∈ ofHistory (h ++ h')) (hmade : x.made < h.length)
    (hret : ∀ n r, x.returned = some (n, r) → h.length ≤ n) :
    ∃ y, (ofHistory h).current x.thread = some y ∧ y.call = x.call ∧
      ∀ k r, y.decided = some (k, r) ↔ k < h.length ∧ x.decided = some (k, r) := by
  obtain ⟨hk, ht⟩ := tells_of_trace htr hR
  have ht' := (tells_of_trace (htr.append htr') hR).2
  have hmark : ∀ {n : Nat}, n < h.length → (h ++ h')[n]? = h[n]? :=
    fun hn => List.getElem?_append_left hn
  obtain ⟨y, hy, hyx⟩ := ht.made ((hmark hmade).symm.trans (ht'.recorded hx).made)
  obtain ⟨z, hz, hzy⟩ := exists_continues hR htr htr' hy
  obtain rfl := ht'.sole hz hx (hzy.made.trans hyx)
  have hsame : Mark.made y.thread y.call = Mark.made z.thread z.call := by
    have hy' := (hmark hmade).trans (hyx ▸ (ht.recorded hy).made)
    exact Option.some.inj (hy'.symm.trans (ht'.recorded hz).made)
  obtain ⟨hthread, hcall⟩ := Mark.made.inj hsame
  have hopen : y.returned = none := by
    by_contra hne
    obtain ⟨⟨n, r⟩, hn⟩ := Option.ne_none_iff_exists'.mp hne
    have hle := hret n r (hzy.returned hn)
    have hlt := lt_of_mark ((ht.recorded hy).returned hn).2
    omega
  obtain ⟨η, hη⟩ : ∃ η, _ := hy.resolve_left fun hpast => hk.closed hpast hopen
  obtain rfl := (hk.own hη).1
  refine ⟨y, hthread ▸ hη, hcall, fun k r => ⟨fun hd => ?_, fun ⟨hkl, hd⟩ => ?_⟩⟩
  · exact ⟨lt_of_mark ((ht.recorded hy).decided hd).2, hzy.decided hd⟩
  · -- the decision is one of the beginning, and no other call has it
    obtain ⟨w, hw, hwd⟩ := ht.decided ((hmark hkl).symm.trans ((ht'.recorded hz).decided hd).2)
    obtain ⟨w', hw', hww⟩ := exists_continues hR htr htr' hw
    obtain rfl := ht'.alone hw' hz (hww.decided hwd) hd
    obtain rfl := ht.sole hw hy (hww.made.symm.trans hzy.made)
    exact hwd

end Book

namespace Room

variable {t : Nat} {R S : Room t} {z : Mark t} {θ : Fin t} {s u : Seat}

/-- Who keeps a seat in a step keeps the call, and the time at which it was made. -/
theorem Step.since_eq (h : R.Step z S) (hs : R.seat θ = some s) (hu : S.seat θ = some u) :
    u.call = s.call ∧ u.since = s.since := by
  cases h.turn with
  | made η c free _ hS =>
    have hne : θ ≠ η := by
      rintro rfl
      cases hs.symm.trans free
    rw [hS, Function.update_of_ne hne, hs] at hu
    cases hu
    exact ⟨rfl, rfl⟩
  | @decided η c i r stage hs' _ _ hS =>
    rw [hS] at hu
    by_cases hne : θ = η
    · subst hne
      rw [Function.update_self] at hu
      cases hs.symm.trans hs'
      cases hu
      exact ⟨rfl, rfl⟩
    · rw [Function.update_of_ne hne, hs] at hu
      cases hu
      exact ⟨rfl, rfl⟩
  | @returned η c i r hs' _ hS =>
    rw [hS] at hu
    by_cases hne : θ = η
    · subst hne
      rw [Function.update_self] at hu
      cases hu
    · rw [Function.update_of_ne hne, hs] at hu
      cases hu
      exact ⟨rfl, rfl⟩
  | silent _ _ houtline =>
    have hout := houtline θ
    rw [hs, hu, Option.map_some, Option.map_some, Option.some.injEq] at hout
    exact ⟨congrArg Prod.fst hout, congrArg (·.2.1) hout⟩

end Room

/-! ### A call has a seat until it returns -/

namespace Machine

variable {σ : Type} {t m g : Nat} {p : Program σ m g} {μ ν κ κ' : Machine σ t m g} {e f : Fin m}
  {as : List (Action t)} {x : Episode t} {j : Nat}

/-- The book of a run is true. -/
theorem tells_book (hμ : μ.Initial) (h : μ.steps p as = some ν) (e : Fin m) :
    (μ.book p e as).Tells (μ.history p e as) :=
  (Book.tells_of_trace (trace_of_steps (hμ.balanced e) h) (hμ.empty e)).2

/-- At any time of its course a call has a seat, with an answer if it was decided by then. -/
theorem exists_seat (hμ : μ.Initial) (h : μ.steps p as = some ν) (hx : x ∈ μ.book p e as)
    (hκ : μ.steps p (as.take j) = some κ) (hj : x.made < j) (hjl : j ≤ as.length)
    (hret : ∀ n r, x.returned = some (n, r) → j ≤ n) :
    ∃ s, (κ.room e).seat x.thread = some s ∧ s.call = x.call ∧
      ∀ r, s.stage.answer? = some r ↔ ∃ k < j, x.decided = some (k, r) := by
  obtain ⟨κ', hκ', hrest⟩ := exists_steps_take h j
  cases hκ.symm.trans hκ'
  have htr := trace_of_steps (e := e) (hμ.balanced e) hκ
  have htr' := trace_of_steps (hμ.balanced_of_steps hκ e) hrest
  have hlen : (μ.history p e (as.take j)).length = j := by
    rw [length_history hκ, List.length_take, Nat.min_eq_left hjl]
  rw [book, ← List.take_append_drop j as, history_append hκ] at hx
  obtain ⟨y, hy, hcall, hdecided⟩ := Book.exists_current (hμ.empty e) htr htr' hx
    (by omega) (by rwa [hlen])
  -- the open episodes are the seats
  have hentry := (Book.tells_of_trace htr (hμ.empty e)).1.entry x.thread
  rw [hy, Option.map_some] at hentry
  obtain ⟨s, hs, hse⟩ := Option.map_eq_some_iff.mp hentry.symm
  obtain ⟨hscall, hsanswer⟩ := Prod.mk.inj hse
  refine ⟨s, hs, hscall.trans hcall, fun r => ?_⟩
  rw [hsanswer, Option.map_eq_some_iff]
  constructor
  · rintro ⟨⟨k, r⟩, hd, rfl⟩
    exact ⟨k, by rw [hdecided, hlen] at hd; exact hd⟩
  · rintro ⟨k, hkj, hd⟩
    exact ⟨(k, r), (hdecided k r).mpr ⟨by omega, hd⟩, rfl⟩

/-- The seat of a call keeps the reading of the clock at which the call was made. -/
theorem since_eq (hμ : μ.Initial) (h : μ.steps p as = some ν) (hx : x ∈ μ.book p e as)
    {ι : Machine σ t m g} (hι : μ.steps p (as.take x.made) = some ι) (hj : x.made < j)
    (hjl : j ≤ as.length) (hret : ∀ n r, x.returned = some (n, r) → j ≤ n)
    (hκ : μ.steps p (as.take j) = some κ) {s : Seat} (hs : (κ.room e).seat x.thread = some s) :
    s.since = ι.now := by
  induction j, hj using Nat.le_induction generalizing κ s with
  | base =>
    obtain ⟨κ₀, κ₁, hat⟩ := exists_stepAt h (by omega : x.made < as.length)
    cases hι.symm.trans hat.before
    cases hκ.symm.trans hat.after
    have hstep := step_room (e := e) (hμ.balanced_of_steps hat.before e) hat.step
    have hmark := (tells_book hμ h e).recorded hx |>.made
    rw [Option.some.inj ((hat.history h e).symm.trans hmark)] at hstep
    cases hstep.turn with
    | made _ _ _ _ hS =>
      rw [hS, Function.update_self] at hs
      cases hs
      rfl
    | silent hsilent _ _ => cases hsilent
  | succ j hj ih =>
    obtain ⟨κ₀, κ₁, hat⟩ := exists_stepAt h (by omega : j < as.length)
    cases hκ.symm.trans hat.after
    have hret' : ∀ n r, x.returned = some (n, r) → j ≤ n := fun n r hn => by
      have := hret n r hn
      omega
    obtain ⟨u, hu, -, -⟩ := exists_seat hμ h hx hat.before hj (by omega) hret'
    have hstep := step_room (e := e) (hμ.balanced_of_steps hat.before e) hat.step
    exact (hstep.since_eq hu hs).2.trans (ih (by omega) hret' hat.before hu)

/-! ### A call works in one stay only -/

/-- A latch changes only in a stay of the thread that decides a call there. -/
theorem exists_work_of_latch_ne {a : Action t} (hb : (μ.monitor f).latch.Balanced)
    (h : μ.step p a = some ν) (hne : (ν.monitor f).latch ≠ (μ.monitor f).latch) :
    ∃ θ c r sinkFails, a = .work θ sinkFails ∧ mark f μ ν a = .decided θ c r := by
  have hstep := step_room hb h
  generalize hz : mark f μ ν a = z at hstep
  cases hstep.turn with
  | made _ _ _ hl _ => exact absurd hl hne
  | @decided θ c i r _ _ _ _ _ =>
    obtain ⟨sinkFails, ha, -⟩ := admits_of_mark hb h hz
    exact ⟨θ, c, r, sinkFails, ha, rfl⟩
  | returned _ hl _ => exact absurd hl hne
  | silent _ hl _ => exact absurd hl hne

/-- In a stay no call is made, and none returns. -/
theorem mark_work (θ : Fin t) (sinkFails : Bool) :
    (∀ η c, mark e μ ν (.work θ sinkFails) ≠ .made η c) ∧
      ∀ η c r, mark e μ ν (.work θ sinkFails) ≠ .returned η c r := by
  simp only [mark]
  rcases (ν.room e).seat θ with _ | ⟨c, i, stage⟩
  · simp
  · cases stage <;> simp [Seat.mark]

/-- A stay in the course of a call lies between its making and its return. -/
theorem lt_of_work (hμ : μ.Initial) (h : μ.steps p as = some ν) (hx : x ∈ μ.book p e as)
    {sinkFails : Bool} (hat : μ.StepAt p as j (.work x.thread sinkFails) κ κ') (hmade : x.made ≤ j)
    (hret : ∀ n r, x.returned = some (n, r) → j ≤ n) :
    x.made < j ∧ ∀ n r, x.returned = some (n, r) → j < n := by
  have hrec := (tells_book hμ h e).recorded hx
  have hmark := hat.history h e
  constructor
  · refine Nat.lt_of_le_of_ne hmade fun heq => ?_
    exact (mark_work _ _).1 _ _ (Option.some.inj (hmark.symm.trans (heq ▸ hrec.made)))
  · intro n r hn
    refine Nat.lt_of_le_of_ne (hret n r hn) fun heq => ?_
    exact (mark_work _ _).2 _ _ _ (Option.some.inj (hmark.symm.trans (heq ▸ (hrec.returned hn).2)))

/-- **The thread of a call works on a latch only in stay `k`** of its event, from the making
of the call to its return. -/
def WorksOnlyAt (p : Program σ m g) (e : Fin m) (μ : Machine σ t m g) (as : List (Action t))
    (x : Episode t) (k : Nat) : Prop :=
  ∀ j a κ κ' f, μ.StepAt p as j a κ κ' → a.thread? = some x.thread → x.made ≤ j →
    (∀ n r, x.returned = some (n, r) → j ≤ n) → (κ'.monitor f).latch ≠ (κ.monitor f).latch →
    f = e ∧ j = k

/-- **What a call does to a latch it does in the stay that decides it**, to the latch of its
event. -/
theorem worksOnlyAt (hμ : μ.Initial) (h : μ.steps p as = some ν) (hx : x ∈ μ.book p e as) {k : Nat}
    {r : Reply} (hd : x.decided = some (k, r)) : μ.WorksOnlyAt p e as x k := by
  intro j a κ κ' f hat hθ hmade hret hne
  have hb := hμ.balanced_of_steps hat.before f
  obtain ⟨θ, c, r', sinkFails, rfl, hmark⟩ := exists_work_of_latch_ne hb hat.step hne
  cases hθ
  obtain ⟨hmade', hret'⟩ := lt_of_work hμ h hx hat hmade hret
  obtain ⟨s, hs, -, hanswer⟩ := exists_seat hμ h hx hat.before hmade' hat.lt.le hret
  obtain ⟨u, hu, -, hanswer'⟩ := exists_seat hμ h hx hat.after (by omega) hat.lt hret'
  have hwork : κ.work x.thread sinkFails = some κ' := hat.step
  obtain ⟨v, hv⟩ := exists_inside_of_work hwork
  -- the thread is inside the lock of the event of its call, and there it decides
  have hstage : (κ.room e).seat x.thread = v.seat e .inside := seat_room hv
  have hve : v.event = e := by
    by_contra hve
    rw [hstage, Visit.seat, if_neg hve] at hs
    cases hs
  have hvf : v.event = f := by
    by_contra hvf
    rw [(work_elsewhere hv hvf hwork).1] at hmark
    cases hmark
  obtain rfl := hvf.symm.trans hve
  rw [hstage, Visit.seat, if_pos hvf] at hs
  cases hs
  have hstep := step_room hb hat.step
  rw [hmark] at hstep
  -- so the call was open before the stay, and decided after it
  have hlt : k < j + 1 := by
    cases hstep.turn with
    | decided _ hr _ hS =>
      rw [hS, Function.update_self] at hu
      cases hu
      obtain ⟨k', hk', hd'⟩ := (hanswer' _).mp hr
      cases hd.symm.trans hd'
      exact hk'
    | silent hsilent _ _ => cases hsilent
  have hge : ¬ k < j := by
    intro hk
    cases (hanswer r).mpr ⟨k, hk, hd⟩
  exact ⟨rfl, by omega⟩

/-- **The stay that decides a call**, with the machines before and after it. -/
theorem exists_decides (hμ : μ.Initial) (h : μ.steps p as = some ν) (hx : x ∈ μ.book p e as)
    {ι : Machine σ t m g} (hι : μ.steps p (as.take x.made) = some ι) {k : Nat} {r : Reply}
    (hd : x.decided = some (k, r)) :
    ∃ κ κ' sinkFails, x.made < k ∧ μ.StepAt p as k (.work x.thread sinkFails) κ κ' ∧
      Call.Decides ι.now κ.now (κ.monitor e).latch x.call r (κ'.monitor e).latch := by
  have hrec := (tells_book hμ h e).recorded hx
  obtain ⟨hmade, hmark⟩ := hrec.decided hd
  have hlt : k < as.length := length_history h (e := e) ▸ lt_of_mark hmark
  obtain ⟨κ, κ', hat⟩ := exists_stepAt h hlt
  have hb := hμ.balanced_of_steps hat.before e
  have hz := Option.some.inj ((hat.history h e).symm.trans hmark)
  obtain ⟨sinkFails, hwork, -⟩ := admits_of_mark hb hat.step hz
  have hstep := step_room hb hat.step
  rw [hz] at hstep
  rw [hwork] at hat
  refine ⟨κ, κ', sinkFails, hmade, hat, ?_⟩
  cases hstep.turn with
  | decided hs _ hdecides _ =>
    have hsince := since_eq hμ h hx hι hmade (by omega)
      (fun _ _ hn => (hrec.lt_of_returned hd hn).le) hat.before hs
    rwa [← hsince]
  | silent hsilent _ _ => cases hsilent

end Machine

end AutoReset.Threads
