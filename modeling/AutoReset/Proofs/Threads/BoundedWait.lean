import AutoReset.Proofs.Threads.Course
/-!
# What the answer of a bounded wait says

A bounded wait may sleep and be woken any number of times, and other threads may do
anything in between. Its two answers still say what they seem to say
(`AutoReset.Threads.Machine.waitTimeout_sound`). If it ran out, then in one stay inside the
lock there was nothing to consume and the clock had come to the due time, which is the
reading at the beginning of the call and the timeout, added up exactly. If it is done, then
in one stay it consumed a signal. Either way that stay is all that the call does to the
latch.

A signal comes before the time. A call that gets the lock while a signal is pending finds it
in its stay (`AutoReset.Threads.Machine.done_of_acquire`), for nobody else is inside in
the meantime; and a stay that finds a signal consumes it and does not look at the clock.
-/

namespace AutoReset

/-! ### The two stays -/

/-- **A stay in which a bounded wait runs out**: there is nothing to consume, its time is
over, and one more timeout is all that changes. -/
structure Call.Expires (since now : Instant) (timeout : Duration) (l l' : Latch) : Prop where
  /-- There is nothing to consume. -/
  missed : l.take = .ok false l
  /-- The due time has come. -/
  due : since.toNanos + timeout.toNanos ≤ now.toNanos
  /-- The timeout is recorded. -/
  recorded : l.recordTimeout = .ok () l'
  /-- It counts as one. -/
  timeouts : l'.stats.timeouts.toNat = l.stats.timeouts.toNat + 1
  /-- The flag and the other counters stay as they are. -/
  others : l' = { l with stats.timeouts := l'.stats.timeouts }

/-- **A stay in which a wait consumes a signal**: the flag is cleared, and one more consumed
signal is all that changes beside it. -/
structure Call.Consumes (l l' : Latch) : Prop where
  /-- There is a signal to consume. -/
  took : l.take = .ok true l'
  /-- It counts as one. -/
  consumed : l'.stats.consumed.toNat = l.stats.consumed.toNat + 1
  /-- The flag is cleared, and the other counters stay as they are. -/
  others : l' = { signaled := false, stats := { l.stats with consumed := l'.stats.consumed } }

namespace Call

variable {since now : Instant} {timeout : Duration} {l l' : Latch}

theorem expires_expired (hb : l.Balanced) (hs : l.signaled = false)
    (hdue : since.toNanos + timeout.toNanos ≤ now.toNanos) (ht : l.stats.timeouts ≠ Counter.last) :
    Expires since now timeout l l.expired where
  missed := by rw [Latch.take_eq hb, hs]; rfl
  due := hdue
  recorded := by rw [Latch.recordTimeout_eq, if_neg ht]
  timeouts := Counter.toNat_succ ht
  others := rfl

theorem consumes_taken (hb : l.Balanced) (hs : l.signaled = true) : Consumes l l.taken where
  took := by rw [Latch.take_eq hb, if_pos hs]
  consumed := Counter.toNat_succ (hb.consumed_ne_last hs)
  others := rfl

/-- A bounded wait that is decided to have run out has expired in this stay. -/
theorem expires_of_decides (hb : l.Balanced)
    (h : Decides since now l (.waitTimeout timeout) .timedOut l') :
    Expires since now timeout l l' := by
  rcases waitTimeout_of_decides h with ⟨-, hr, -⟩ | ⟨hs, hdue, ⟨ht, -, rfl⟩ | ⟨-, hr, -⟩⟩
  · cases hr
  · exact expires_expired hb hs hdue ht
  · cases hr

/-- A bounded wait that is decided to be done has consumed a signal in this stay. -/
theorem consumes_of_decides (hb : l.Balanced)
    (h : Decides since now l (.waitTimeout timeout) .done l') : Consumes l l' := by
  rcases waitTimeout_of_decides h with ⟨hs, -, rfl⟩ | ⟨-, -, ⟨-, ⟨sinkFails, hr⟩, -⟩ | ⟨-, hr, -⟩⟩
  · exact consumes_taken hb hs
  · cases sinkFails <;> cases hr
  · cases hr

end Call

namespace Threads

/-! ### A signal that is there when the lock is got -/

namespace Room

variable {t : Nat} {R S : Room t} {z : Mark t} {θ : Fin t} {c : Call} {i : Instant}

/-- **Who is inside the lock with a signal pending finds it there**: until its stay nobody
touches the latch, and in its stay it does not fall asleep. -/
theorem Step.inside_of_signaled (h : R.Step z S) (ho : R.Orderly)
    (hs : R.seat θ = some ⟨c, i, .inside⟩) (hl : R.latch.signaled = true) :
    (∃ r, z = .decided θ c r) ∨
      (S.seat θ = some ⟨c, i, .inside⟩ ∧ S.latch.signaled = true) := by
  -- nobody else holds the lock, and those who do not leave the seat and the latch alone
  have hsole : ∀ {η : Fin t} {u : Seat}, R.seat η = some u → u.stage.holds = true →
      η = θ ∧ u = ⟨c, i, .inside⟩ := by
    intro η u hu hh
    obtain rfl := ho.eq_of_holds hu hs hh rfl
    exact ⟨rfl, Option.some.inj (hu.symm.trans hs)⟩
  have hput : ∀ {T : Room t} {η : Fin t} {x : Option Seat}, T.seat = R.seat → η ≠ θ →
      (T.put η x).seat θ = some ⟨c, i, .inside⟩ := by
    intro T η x hT hne
    rw [seat_put_of_ne _ _ hne.symm, hT, hs]
  cases h with
  | made η d free =>
    refine Or.inr ⟨hput rfl ?_, hl⟩
    rintro rfl
    cases hs.symm.trans free
  | entered hu _ free =>
    cases (ho.fits hs).holds.mp rfl ▸ free
  | posted hu _ =>
    obtain ⟨rfl, hseat⟩ := hsole hu rfl
    cases hseat
    exact Or.inl ⟨_, rfl⟩
  | answered hu _ =>
    obtain ⟨rfl, hseat⟩ := hsole hu rfl
    cases hseat
    exact Or.inl ⟨_, rfl⟩
  | dozed _ hunset _ => cases hl.symm.trans hunset
  | told hu _ => cases (hsole hu rfl).2
  | toldNobody hu _ => cases (hsole hu rfl).2
  | returned hu => cases (hsole hu rfl).2
  | slept hu => cases (hsole hu rfl).2
  | woke hu =>
    refine Or.inr ⟨hput rfl ?_, hl⟩
    rintro rfl
    cases hs.symm.trans hu
  | passed _ => exact Or.inr ⟨hs, hl⟩

end Room

namespace Machine

variable {σ : Type} {t m g : Nat} {p : Program σ m g} {μ ν κ κ' : Machine σ t m g} {e : Fin m}
  {as : List (Action t)} {x : Episode t} {d : Duration} {j : Nat}

/-- Who gets the lock is inside it, and finds the latches as they were. -/
theorem inside_of_acquire {θ : Fin t} (h : μ.acquire θ = some ν) :
    (∃ v, ν.status θ = .inside v) ∧ ∀ f, (ν.monitor f).latch = (μ.monitor f).latch := by
  obtain ⟨v, -, -, rfl⟩ := exists_of_acquire h
  refine ⟨⟨v, by simp [status]⟩, fun f => ?_⟩
  rw [monitor_setStatus]
  by_cases hf : f = v.event
  · rw [hf, monitor_setMonitor_self]
  · rw [monitor_setMonitor_of_ne _ _ hf]

/-- With the lock a call has its seat inside. -/
theorem seat_of_acquire (hμ : μ.Initial) (h : μ.steps p as = some ν) (hx : x ∈ μ.book p e as)
    (hat : μ.StepAt p as j (.acquire x.thread) κ κ') (hmade : x.made < j)
    (hret : ∀ n r, x.returned = some (n, r) → j < n) :
    (∃ c i, (κ'.room e).seat x.thread = some ⟨c, i, .inside⟩) ∧
      ∀ k r, x.decided = some (k, r) → j < k := by
  obtain ⟨s, hs, -, hanswer⟩ := exists_seat hμ h hx hat.after (by omega) hat.lt hret
  obtain ⟨⟨v, hv⟩, -⟩ := inside_of_acquire (show κ.acquire x.thread = some κ' from hat.step)
  have hstage : s.stage = .inside := by
    rw [seat_room hv, Status.seat, Visit.seat] at hs
    split at hs
    · cases hs
      rfl
    · cases hs
  obtain ⟨c, i, stage⟩ := s
  cases hstage
  refine ⟨⟨c, i, hs⟩, fun k r hd => ?_⟩
  by_contra hlt
  cases (hanswer r).mpr ⟨k, by omega, hd⟩

/-- **A call that is inside with a signal pending is so until it is decided.** -/
theorem signaled_until_decided (hμ : μ.Initial) (h : μ.steps p as = some ν)
    (hx : x ∈ μ.book p e as) (hmade : x.made < j) (hκ : μ.steps p (as.take j) = some κ)
    {c : Call} {i : Instant} (hs : (κ.room e).seat x.thread = some ⟨c, i, .inside⟩)
    (hl : (κ.monitor e).latch.signaled = true) {k : Nat} {r : Reply}
    (hd : x.decided = some (k, r)) {n : Nat} (hjn : j ≤ n) (hnk : n ≤ k)
    (hκ' : μ.steps p (as.take n) = some κ') :
    (κ'.room e).seat x.thread = some ⟨c, i, .inside⟩ ∧ (κ'.monitor e).latch.signaled = true := by
  have hrec := (tells_book hμ h e).recorded hx
  have hlen : k < as.length := length_history h (e := e) ▸ lt_of_mark (hrec.decided hd).2
  induction n, hjn using Nat.le_induction generalizing κ' with
  | base =>
    cases hκ.symm.trans hκ'
    exact ⟨hs, hl⟩
  | succ n hn ih =>
    obtain ⟨κ₀, κ₁, hat⟩ := exists_stepAt h (by omega : n < as.length)
    cases hat.after.symm.trans hκ'
    obtain ⟨hseat, hsignaled⟩ := ih (by omega) hat.before
    have hstep := step_room (e := e) (hμ.balanced_of_steps hat.before e) hat.step
    rcases hstep.inside_of_signaled (hμ.orderly hat.before e) hseat hsignaled with
      ⟨r', hmark⟩ | hstays
    · -- the call has no answer after this step, so it cannot have been decided by it
      obtain ⟨u, hu, -, hanswer⟩ := exists_seat hμ h hx hκ' (by omega) (by omega)
        fun _ _ hret => hnk.trans (hrec.lt_of_returned hd hret).le
      rw [hmark] at hstep
      cases hstep.turn with
      | decided _ hr _ hS =>
        rw [hS, Function.update_self] at hu
        cases hu
        obtain ⟨k', hk', hd'⟩ := (hanswer r').mp hr
        cases hd.symm.trans hd'
        omega
      | silent hsilent _ _ => cases hsilent
    · exact hstays

/-- **A bounded wait that gets the lock while a signal is pending is done**, whatever the
clock says. -/
theorem done_of_acquire (hμ : μ.Initial) (h : μ.steps p as = some ν)
    (hx : x ∈ μ.book p e as) (hc : x.call = .waitTimeout d)
    (hat : μ.StepAt p as j (.acquire x.thread) κ κ') (hmade : x.made < j)
    (hret : ∀ n r, x.returned = some (n, r) → j < n) (hl : (κ.monitor e).latch.signaled = true)
    {k : Nat} {r : Reply} (hd : x.decided = some (k, r)) : r = .done := by
  obtain ⟨⟨c, i, hseat⟩, hlater⟩ := seat_of_acquire hμ h hx hat hmade hret
  have hlatch := (inside_of_acquire (show κ.acquire x.thread = some κ' from hat.step)).2 e
  obtain ⟨ι, hι, -⟩ := exists_steps_take h x.made
  obtain ⟨κ₀, κ₁, sinkFails, -, hatk, hdecides⟩ := exists_decides hμ h hx hι hd
  have hsignaled := (signaled_until_decided hμ h hx (by omega) hat.after hseat
    ((congrArg Latch.signaled hlatch).trans hl) hd (hlater k r hd) (Nat.le_refl k) hatk.before).2
  rw [hc] at hdecides
  rcases Call.waitTimeout_of_decides hdecides with ⟨-, hr, -⟩ | ⟨hunset, -⟩
  · exact hr
  · cases hsignaled.symm.trans hunset

/-! ### The two answers -/

/-- **Both answers of a bounded wait are sound.** Let the call be made when the clock reads
`ι.now`.

* If it ran out, one of its stays found the slot empty when the clock had come to `ι.now`
  and the timeout, and recorded the timeout; that is all that the call did to a latch.
* If it is done, one of its stays consumed a signal, at whatever time; and that is all.
* If the due time is past the last instant it does not run out.
* If it ever gets the lock while a signal is pending it is done, however late that is. -/
theorem waitTimeout_sound (hμ : μ.Initial) (h : μ.steps p as = some ν) (hx : x ∈ μ.book p e as)
    (hc : x.call = .waitTimeout d) :
    ∃ ι, μ.steps p (as.take x.made) = some ι ∧
      (∀ n, x.returned = some (n, .timedOut) → ∃ k κ κ' sinkFails, x.made < k ∧ k < n ∧
        μ.StepAt p as k (.work x.thread sinkFails) κ κ' ∧
        Call.Expires ι.now κ.now d (κ.monitor e).latch (κ'.monitor e).latch ∧
        μ.WorksOnlyAt p e as x k) ∧
      (∀ n, x.returned = some (n, .done) → ∃ k κ κ' sinkFails, x.made < k ∧ k < n ∧
        μ.StepAt p as k (.work x.thread sinkFails) κ κ' ∧
        Call.Consumes (κ.monitor e).latch (κ'.monitor e).latch ∧ μ.WorksOnlyAt p e as x k) ∧
      (ι.now.add? d = none → ∀ n, x.returned ≠ some (n, .timedOut)) ∧
      ∀ j κ κ', μ.StepAt p as j (.acquire x.thread) κ κ' → x.made < j →
        (∀ n r, x.returned = some (n, r) → j < n) → (κ.monitor e).latch.signaled = true →
        ∀ n r, x.returned = some (n, r) → r = .done := by
  have hrec := (tells_book hμ h e).recorded hx
  obtain ⟨ι, hι, -⟩ := exists_steps_take h x.made
  have hexpires : ∀ n, x.returned = some (n, .timedOut) → ∃ k κ κ' sinkFails, x.made < k ∧ k < n ∧
      μ.StepAt p as k (.work x.thread sinkFails) κ κ' ∧
      Call.Expires ι.now κ.now d (κ.monitor e).latch (κ'.monitor e).latch ∧
      μ.WorksOnlyAt p e as x k := by
    intro n hn
    obtain ⟨⟨k, hk, hd⟩, -⟩ := hrec.returned hn
    obtain ⟨κ, κ', sinkFails, hmade, hat, hdecides⟩ := exists_decides hμ h hx hι hd
    rw [hc] at hdecides
    exact ⟨k, κ, κ', sinkFails, hmade, hk, hat,
      Call.expires_of_decides (hμ.balanced_of_steps hat.before e) hdecides,
      worksOnlyAt hμ h hx hd⟩
  refine ⟨ι, hι, hexpires, ?_, ?_, ?_⟩
  · intro n hn
    obtain ⟨⟨k, hk, hd⟩, -⟩ := hrec.returned hn
    obtain ⟨κ, κ', sinkFails, hmade, hat, hdecides⟩ := exists_decides hμ h hx hι hd
    rw [hc] at hdecides
    exact ⟨k, κ, κ', sinkFails, hmade, hk, hat,
      Call.consumes_of_decides (hμ.balanced_of_steps hat.before e) hdecides,
      worksOnlyAt hμ h hx hd⟩
  · intro hpast n hn
    obtain ⟨k, κ, κ', sinkFails, -, -, -, hexp, -⟩ := hexpires n hn
    have hlast := Instant.le_iff_toNanos_le.mp κ.now.le_last
    have hdue := hexp.due
    rw [Instant.add?_eq_none_iff] at hpast
    omega
  · intro j κ κ' hat hmade hret hl n r hn
    obtain ⟨⟨k, -, hd⟩, -⟩ := hrec.returned hn
    exact done_of_acquire hμ h hx hc hat hmade hret hl hd

/-- Five nanoseconds. -/
def fiveNanos : Duration := { Duration.zero with nanos := 5, nanos_lt := by decide }

/-- One thread makes two bounded waits of five nanoseconds, and one signals. -/
def belated (e : Fin m) : Machine (Tape m 0) 2 m 0 :=
  ofTapes 0 (.replicate m .fresh)
    [[.call e (.waitTimeout fiveNanos), .call e (.waitTimeout fiveNanos)], [.call e .signal]] .zero

/-- The first wait is woken too early, sleeps again, and runs out. The second one gets the
lock when its time is long over, but there is a signal then. -/
def belatedRun (θ η : Fin t) : List (Action t) :=
  [.start θ, .acquire θ, .work θ false, .sleep θ, .wake θ, .acquire θ, .work θ false, .sleep θ,
    .tick { Instant.zero with nanos := 5, nanos_lt := fiveNanos.nanos_lt }, .expire θ,
    .acquire θ, .work θ false, .leave θ,
    .start θ, .start η, .acquire η, .work η false, .notify η none, .leave η,
    .tick { Instant.zero with secs := 1, le_secs := by decide, secs_lt := by decide },
    .acquire θ, .work θ false, .leave θ]

/-- The first wait ran out in a stay five nanoseconds after the beginning or later, and the
second one consumed the signal. -/
theorem waitTimeout_sound_belated :
    ∃ ν, (belated (0 : Fin 1)).steps Tape.program (belatedRun 0 1) = some ν ∧
      (∃ k κ κ' sinkFails, k < 12 ∧
        (belated (0 : Fin 1)).StepAt Tape.program (belatedRun 0 1) k (.work 0 sinkFails) κ κ' ∧
        Call.Expires .zero κ.now fiveNanos (κ.monitor 0).latch
          (κ'.monitor 0).latch) ∧
      ∃ k κ κ' sinkFails, 13 < k ∧ k < 22 ∧
        (belated (0 : Fin 1)).StepAt Tape.program (belatedRun 0 1) k (.work 0 sinkFails) κ κ' ∧
        Call.Consumes (κ.monitor 0).latch (κ'.monitor 0).latch := by
  obtain ⟨ν, hν⟩ : ∃ ν, (belated (0 : Fin 1)).steps Tape.program (belatedRun 0 1) = some ν :=
    Option.isSome_iff_exists.mp (by decide +kernel)
  have hinitial : (belated (0 : Fin 1)).Initial := initial_ofTapes ..
  have hx : ⟨0, .waitTimeout fiveNanos, 0, some (11, .timedOut),
      some (12, .timedOut)⟩ ∈ (belated (0 : Fin 1)).book Tape.program 0 (belatedRun 0 1) :=
    Or.inl (by decide +kernel)
  have hy : ⟨0, .waitTimeout fiveNanos, 13, some (21, .done),
      some (22, .done)⟩ ∈ (belated (0 : Fin 1)).book Tape.program 0 (belatedRun 0 1) :=
    Or.inl (by decide +kernel)
  obtain ⟨ι, hι, hexpires, -⟩ := waitTimeout_sound hinitial hν hx rfl
  obtain ⟨-, -, -, hconsumes, -⟩ := waitTimeout_sound hinitial hν hy rfl
  cases hι
  obtain ⟨k, κ, κ', b, -, hk, hat, hexp, -⟩ := hexpires 12 rfl
  obtain ⟨k', κ₀, κ₁, b', hmade, hk', hat', hcon, -⟩ := hconsumes 22 rfl
  exact ⟨ν, hν, ⟨k, κ, κ', b, hk, hat, hexp⟩, k', κ₀, κ₁, b', hmade, hk', hat', hcon⟩

end Machine

end Threads

end AutoReset
