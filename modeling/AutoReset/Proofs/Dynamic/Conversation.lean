import AutoReset.Dynamic.Session
import AutoReset.Proofs.Event.Stay
import AutoReset.Proofs.Script.Likeness
import AutoReset.Proofs.Time.Seconds
/-!
# One thread with an object of its own

A program that has an object to itself makes one call after another
(`AutoReset.Dynamic.converse`). What it sees is the history of a latch, on which a signal is a
post, a wait takes, and a bounded wait takes or counts a timeout
(`AutoReset.Dynamic.Use.onLatch`): there is no call that sleeps, as long as this thread does not,
so nothing comes between two of its calls. A wait that would sleep for ever is the last call of the
thread, for there is nobody else to signal.

A number of seconds that is no duration is refused before the event is touched. The exception
leaves everything as it was, and it is as if the call had not been made.
-/

namespace AutoReset

/-! ### A call on an event that nobody else uses -/

namespace System

variable {a : Address} {l l' : Latch} {g : Origin} {s s' : System}

/-- Is there an event with this latch at the address, in balance and with nobody asleep, and does
the log sink not fail? -/
structure Idle (a : Address) (l : Latch) (s : System) : Prop where
  unarmed : s.Unarmed
  balanced : l.Balanced
  exists_cell : ∃ g, s.cell? a = some ⟨l, [], g⟩

/-- The latch of the event at an address. -/
def latchAt (a : Address) (s : System) : Option Latch := (s.cell? a).map Cell.latch

theorem Idle.latchAt (h : Idle a l s) : s.latchAt a = some l := by
  obtain ⟨g, hcell⟩ := h.exists_cell
  rw [System.latchAt, hcell]
  rfl

theorem Idle.place (h : Idle a l s) (hb : l'.Balanced) (g : Origin) :
    Idle a l' (s.place a (some ⟨l', [], g⟩)) :=
  ⟨h.unarmed, hb, g, cell?_place_self ..⟩

theorem Idle.noted (h : Idle a l s) (r : Record) : Idle a l (s.noted r) :=
  ⟨unarmed_noted h.unarmed r, h.balanced, h.exists_cell⟩

/-- **A call on an event where nobody sleeps is one stay inside the lock.** -/
theorem enter_eq_of_nil (hcell : s.cell? a = some ⟨l, [], g⟩) (now : Instant) (c : Call) :
    enter now a c s =
      match c.inside now now l with
      | .ok (.answer r) l' =>
        ((fun _ => ⟨some r, none⟩) <$> logTimeout now now (some r) : Attempt System Passage)
          (s.place a (some ⟨l', [], g⟩))
      | .ok .announce l' => .ok { reply := some .done } (s.place a (some ⟨l', [], g⟩))
      | .ok (.sleep _) l' => .ok { reply := none } (s.place a (some ⟨l', [⟨c, now⟩], g⟩))
      | .error f l' => .error f (s.place a (some ⟨l', [], g⟩)) := by
  simp only [enter, Attempt.bind_apply, onCell, hcell, Cell.enter, Cell.onLatch]
  cases hin : c.inside now now l with
  | error f l' => rfl
  | ok v l' =>
    cases v with
    | answer r => rfl
    | announce => rfl
    | sleep b => rfl

/-- Only a bounded wait that ran out is put on record, and that does not fail. -/
theorem exists_logTimeout (h : Idle a l s) (since now : Instant) (r : Option Reply) :
    ∃ s', logTimeout since now r s = .ok () s' ∧ Idle a l s' := by
  unfold logTimeout
  split
  · exact ⟨_, log_of_unarmed h.unarmed _, h.noted _⟩
  · exact ⟨s, rfl, h⟩

variable {c : Call} {now : Instant} {v : Verdict} {r : Reply}

/-- **A call that has its answer leaves the event idle**, with the latch of its stay. -/
theorem exists_enter_of_answer (h : Idle a l s) (hin : c.inside now now l = .ok (.answer r) l')
    (hb : l'.Balanced) : ∃ s', enter now a c s = .ok ⟨some r, none⟩ s' ∧ Idle a l' s' := by
  obtain ⟨g, hcell⟩ := h.exists_cell
  obtain ⟨s', hlog, hidle⟩ := exists_logTimeout (h.place hb g) now now (some r)
  refine ⟨s', ?_, hidle⟩
  rw [enter_eq_of_nil hcell, hin]
  simp only [Attempt.map_apply, hlog]

/-- A signal wakes nobody where nobody sleeps. -/
theorem exists_enter_of_announce (h : Idle a l s) (hin : c.inside now now l = .ok .announce l')
    (hb : l'.Balanced) : ∃ s', enter now a c s = .ok ⟨some .done, none⟩ s' ∧ Idle a l' s' := by
  obtain ⟨g, hcell⟩ := h.exists_cell
  refine ⟨_, ?_, h.place hb g⟩
  rw [enter_eq_of_nil hcell, hin]

theorem exists_enter_of_error {f : Fault} (h : Idle a l s)
    (hin : c.inside now now l = .error f l') (hb : l'.Balanced) :
    ∃ s', enter now a c s = .error f s' ∧ Idle a l' s' := by
  obtain ⟨g, hcell⟩ := h.exists_cell
  refine ⟨_, ?_, h.place hb g⟩
  rw [enter_eq_of_nil hcell, hin]

/-- A call that sleeps leaves the latch as it was, and is the only one asleep. -/
theorem exists_enter_of_sleep {b : Option Duration} (h : Idle a l s)
    (hin : c.inside now now l = .ok (.sleep b) l) :
    ∃ s' g, enter now a c s = .ok ⟨none, none⟩ s' ∧ s'.Unarmed ∧
      s'.cell? a = some ⟨l, [⟨c, now⟩], g⟩ := by
  obtain ⟨g, hcell⟩ := h.exists_cell
  refine ⟨s.place a (some ⟨l, [⟨c, now⟩], g⟩), g, ?_, h.unarmed, cell?_place_self ..⟩
  rw [enter_eq_of_nil hcell, hin]

/-- **The one sleeper, woken because its time has run out, makes one more stay.** -/
theorem onCell_expire_eq {since later : Instant}
    (hcell : s.cell? a = some ⟨l, [⟨c, since⟩], g⟩) :
    onCell a (Cell.expire later) s =
      match c.inside since later l with
      | .ok (.answer r) l' => .ok (some (some r)) (s.place a (some ⟨l', [], g⟩))
      | .ok .announce l' => .ok (some (some .done)) (s.place a (some ⟨l', [], g⟩))
      | .ok (.sleep _) l' => .ok (some none) (s.place a (some ⟨l', [⟨c, since⟩], g⟩))
      | .error f l' => .error f (s.place a (some ⟨l', [], g⟩)) := by
  simp only [onCell, hcell, Cell.expire, Cell.resume, Cell.onLatch, Attempt.bind_apply,
    Attempt.get_apply, Attempt.modify_apply, List.getLast?_singleton, List.dropLast_singleton]
  cases hin : c.inside since later l with
  | error f l' => rfl
  | ok v l' =>
    cases v with
    | answer r => rfl
    | announce => rfl
    | sleep b => rfl

/-! ### A bounded wait to its end -/

section WaitOut

variable {timeout : Duration}

/-- A signal is consumed at once. -/
theorem exists_waitOut_of_signaled (h : Idle a l s) (now : Instant) (timeout : Duration)
    (hs : l.signaled = true) :
    ∃ s' later, waitOut now a timeout s = .ok (⟨some .done, none⟩, later) s' ∧
      Idle a l.taken s' := by
  have hin := Call.inside_waitTimeout now now h.balanced timeout
  rw [hs, if_pos rfl] at hin
  obtain ⟨s', hrun, hidle⟩ := exists_enter_of_answer h hin (h.balanced.taken hs)
  refine ⟨s', now, ?_, hidle⟩
  simp only [waitOut, Attempt.bind_apply, hrun]
  rfl

/-- The instant at which a bounded wait is woken that nobody signals: its due time if there is
one. -/
def wakeTime (now : Instant) (timeout : Duration) : Instant :=
  Clock.advance now ((Deadline.startingAt now timeout).remainingAt now)

/-- When it is woken, the time is out, unless there is no due time. -/
theorem bound?_wakeTime {b : Option Duration}
    (hb : (Call.waitTimeout timeout).bound? now now = some b) :
    (Call.waitTimeout timeout).bound? now (wakeTime now timeout) = none ↔
      now.add? timeout ≠ none := by
  rw [Call.bound?_eq_none_iff, ne_eq, Instant.add?_eq_none_iff]
  have hahead : ¬ now.toNanos + timeout.toNanos ≤ now.toNanos := fun hle => by
    rw [Call.bound?_eq_none_iff.mpr hle] at hb
    cases hb
  cases hdue : (Deadline.startingAt now timeout).due with
  | none =>
    have hpast := Deadline.due_startingAt_eq_none.mp hdue
    have hlast := Instant.le_iff_toNanos_le.mp (wakeTime now timeout).le_last
    omega
  | some due =>
    have hexpired : (Deadline.startingAt now timeout).isExpiredAt now = false := by
      rw [Bool.eq_false_iff, ne_eq, Deadline.isExpiredAt_startingAt]
      exact hahead
    have hwake : wakeTime now timeout = due := by
      rw [wakeTime, Clock.advance, Deadline.add?_remainingAt hdue hexpired, Option.getD_some]
    have hsum := Deadline.due_startingAt.mp hdue
    have hlast := Instant.le_iff_toNanos_le.mp due.le_last
    rw [hwake]
    omega

/-- A bounded wait that sleeps is woken for one more stay. -/
theorem waitOut_of_sleep (h : enter now a (.waitTimeout timeout) s = .ok ⟨none, none⟩ s') :
    waitOut now a timeout s =
      (do
        let r := (← onCell a (Cell.expire (wakeTime now timeout))).join
        logTimeout now (wakeTime now timeout) r
        return (⟨r, none⟩, wakeTime now timeout) : Attempt System (Passage × Instant)) s' := by
  rw [waitOut, Attempt.bind_apply, h]
  rfl

/-- **What a bounded wait comes to that finds no signal**: with a due time, the stay at which the
time is out decides, be it the first one or the one after the sleep; without one, the call sleeps
and never gets up. -/
theorem exists_waitOut_of_unsignaled (h : Idle a l s) (now : Instant) (timeout : Duration)
    (hs : l.signaled = false) :
    (now.add? timeout = none ∧
      ∃ s' later, waitOut now a timeout s = .ok (⟨none, none⟩, later) s' ∧ s'.latchAt a = some l) ∨
    (now.add? timeout ≠ none ∧ l.stats.timeouts = Counter.last ∧
      ∃ s', waitOut now a timeout s = .error .counterOverflow s' ∧ Idle a l s') ∨
    (now.add? timeout ≠ none ∧ l.stats.timeouts ≠ Counter.last ∧
      ∃ s' later, waitOut now a timeout s = .ok (⟨some .timedOut, none⟩, later) s' ∧
        Idle a l.expired s') := by
  have hin := Call.inside_waitTimeout now now h.balanced timeout
  simp only [hs, Bool.false_eq_true, if_false] at hin
  cases hb : (Call.waitTimeout timeout).bound? now now with
  | none =>
    -- no time at all: the first stay decides
    have hdue : now.add? timeout ≠ none := fun hnone => by
      have hpast := Instant.add?_eq_none_iff.mp hnone
      have hnow := Instant.le_iff_toNanos_le.mp now.le_last
      have hout := Call.bound?_eq_none_iff.mp hb
      omega
    simp only [hb] at hin
    by_cases ht : l.stats.timeouts = Counter.last
    · rw [if_pos ht] at hin
      obtain ⟨s', hrun, hidle⟩ := exists_enter_of_error h hin h.balanced
      refine .inr (.inl ⟨hdue, ht, s', ?_, hidle⟩)
      simp only [waitOut, Attempt.bind_apply, hrun]
    · rw [if_neg ht] at hin
      obtain ⟨s', hrun, hidle⟩ := exists_enter_of_answer h hin h.balanced.expired
      refine .inr (.inr ⟨hdue, ht, s', now, ?_, hidle⟩)
      simp only [waitOut, Attempt.bind_apply, hrun]
      rfl
  | some b =>
    simp only [hb] at hin
    obtain ⟨s₁, g, hrun, hunarmed, hcell⟩ := exists_enter_of_sleep h hin
    have hlate := Call.inside_waitTimeout now (wakeTime now timeout) h.balanced timeout
    simp only [hs, Bool.false_eq_true, if_false] at hlate
    rw [waitOut_of_sleep hrun, Attempt.bind_apply, onCell_expire_eq hcell, hlate]
    cases hout : (Call.waitTimeout timeout).bound? now (wakeTime now timeout) with
    | some b' =>
      have hnone : now.add? timeout = none := by
        by_contra hne
        rw [(bound?_wakeTime hb).mpr hne] at hout
        cases hout
      refine .inl ⟨hnone, _, _, rfl, ?_⟩
      simp only [latchAt, cell?_place_self, Option.map_some]
    | none =>
      have hdue := (bound?_wakeTime hb).mp hout
      have hplaced {l' : Latch} (hb' : l'.Balanced) : Idle a l' (s₁.place a (some ⟨l', [], g⟩)) :=
        ⟨hunarmed, hb', g, cell?_place_self ..⟩
      by_cases ht : l.stats.timeouts = Counter.last
      · simp only [if_pos ht]
        exact .inr (.inl ⟨hdue, ht, _, rfl, hplaced h.balanced⟩)
      · simp only [if_neg ht]
        obtain ⟨s', hlog, hidle⟩ := exists_logTimeout (hplaced h.balanced.expired) now
          (wakeTime now timeout) (some .timedOut)
        refine .inr (.inr ⟨hdue, ht, s', wakeTime now timeout, ?_, hidle⟩)
        simp only [Option.join_some, Attempt.bind_apply, hlog]
        rfl

end WaitOut

end System

namespace Dynamic

/-! ### What a program does with an object -/

/-- What a program does with an object of its own. -/
inductive Use where
  /-- Signals it. -/
  | signal
  /-- Waits for a signal. -/
  | wait
  /-- Consumes a pending signal, if there is one. -/
  | tryWait
  /-- Waits for a signal, but no longer than this number of seconds. -/
  | waitTimeout (seconds : Binary64)
  /-- Asks whether a signal is pending. -/
  | isSignaled
  /-- Asks for the counters. -/
  | stats
  /-- Asks for the text of the object. -/
  | text
  deriving DecidableEq

/-- A use, and what the clock says when it is made. -/
structure Turn where
  /-- The reading of the clock. -/
  now : Instant
  /-- The use. -/
  use : Use
  deriving DecidableEq

/-- Makes use of an object, and stays with the call. -/
def Use.onObject (setting : Setting) (o : Owner) : Use → StateM System Effect
  | .signal => invoke setting .staying o .signal []
  | .wait => invoke setting .staying o .wait []
  | .tryWait => invoke setting .staying o .tryWait []
  | .waitTimeout seconds => invoke setting .staying o .waitTimeout [.float seconds]
  | .isSignaled => readSignaled setting o
  | .stats => invoke setting .staying o .stats []
  | .text => invoke setting .staying o .represent []

/-- **What a use comes to on a latch.** A bounded wait takes, or it counts a timeout when its time
is out; it never is if the due time is past the last instant. -/
def Use.onLatch (now : Instant) : Use → Attempt Latch Result
  | .signal => do
    let _ ← Latch.post
    return .none
  | .wait => do
    if ← Latch.take then
      return .none
    else
      return .blocked
  | .tryWait => do
    return .bool (← Latch.take)
  | .waitTimeout seconds =>
    match Duration.ofSeconds seconds with
    | .error e => return .raised (.badSeconds e)
    | .ok timeout => do
      if ← Latch.take then
        return .bool true
      else if now.add? timeout = none then
        return .blocked
      else
        Latch.recordTimeout
        return .bool false
  | .isSignaled => do
    return .bool (← get).signaled
  | .stats => do
    return .stats (← get).stats
  | .text => do
    return .text (if (← get).signaled then "Event(signaled=true)" else "Event(signaled=false)")

theorem objectText_eq (signaled : Bool) : objectText signaled =
    if signaled then "Event(signaled=true)" else "Event(signaled=false)" := by
  cases signaled <;> rfl

/-- Takes the turn of a thread with an object. -/
def Turn.onObject (setting : Setting) (o : Owner) (t : Turn) : StateM System Result :=
  Effect.result <$> t.use.onObject { setting with now := t.now } o

/-- Takes the turn of a thread with a latch; a fault becomes an exception. -/
def Turn.onLatch (t : Turn) : StateM Latch Result := fun l =>
  match t.use.onLatch t.now l with
  | .ok r l => (r, l)
  | .error f l => (.raised (.fault f), l)

/-- **The results of the turns of one thread**, in order. Behind a call that sleeps it has no
further turn. -/
def converse {σ : Type} (take : Turn → StateM σ Result) : List Turn → StateM σ (List Result)
  | [] => return []
  | t :: ts => do
    let r ← take t
    if r = .blocked then
      return [r]
    else
      return r :: (← converse take ts)

section Converse

variable {σ : Type} {take : Turn → StateM σ Result} {t : Turn} {s : σ}

theorem converse_cons_of_blocked (h : (take t s).1 = .blocked) (ts : List Turn) :
    converse take (t :: ts) s = ([.blocked], (take t s).2) := by
  show (if (take t s).1 = .blocked then _ else _ : StateM σ (List Result)) (take t s).2 = _
  rw [if_pos h, h]
  rfl

theorem converse_cons_of_ne (h : (take t s).1 ≠ .blocked) (ts : List Turn) :
    converse take (t :: ts) s =
      ((take t s).1 :: (converse take ts (take t s).2).1, (converse take ts (take t s).2).2) := by
  show (if (take t s).1 = .blocked then _ else _ : StateM σ (List Result)) (take t s).2 = _
  rw [if_neg h]
  rfl

end Converse

/-! ### The object and the latch, turn by turn -/

/-- **Do an object and a latch come out of a turn alike?** The results are the same, the latch of
the event is the other one, and unless the thread sleeps the event is ready for its next turn. -/
structure Mirrors (a : Address) (x : Result × System) (y : Result × Latch) : Prop where
  result_eq : x.1 = y.1
  latchAt : x.2.latchAt a = some y.2
  idle : y.1 ≠ .blocked → System.Idle a y.2 x.2

variable {setting : Setting} {o : Owner} {u : Use} {now : Instant} {l l' : Latch} {s s' : System}
  {α : Type} {x : Attempt System α} {k : α → Effect} {p : α}

theorem Turn.onObject_apply (setting : Setting) (o : Owner) (t : Turn) (s : System) :
    t.onObject setting o s =
      ((t.use.onObject { setting with now := t.now } o s).1.result,
        (t.use.onObject { setting with now := t.now } o s).2) := rfl

/-- A turn that returns, on the object. -/
theorem Turn.onObject_of_ok
    (hu : u.onObject { setting with now } o = raising (do return k (← x)))
    (hx : x s = .ok p s') : Turn.onObject setting o ⟨now, u⟩ s = ((k p).result, s') := by
  simp only [onObject_apply, hu, raising, Attempt.bind_apply, hx, Attempt.pure_apply]

/-- The object and the latch return alike. -/
theorem mirrors_of_ok
    (hu : u.onObject { setting with now } o = raising (do return k (← x)))
    (hx : x s = .ok p s') (hidle : System.Idle o.address l' s')
    (hl : u.onLatch now l = .ok (k p).result l') :
    Mirrors o.address (Turn.onObject setting o ⟨now, u⟩ s) (Turn.onLatch ⟨now, u⟩ l) := by
  rw [Turn.onObject_of_ok hu hx, Turn.onLatch, hl]
  exact ⟨rfl, hidle.latchAt, fun _ => hidle⟩

/-- The thread sleeps on the object, and the latch says so. -/
theorem mirrors_of_blocked
    (hu : u.onObject { setting with now } o = raising (do return k (← x)))
    (hx : x s = .ok p s') (hk : (k p).result = .blocked) (hat : s'.latchAt o.address = some l')
    (hl : u.onLatch now l = .ok .blocked l') :
    Mirrors o.address (Turn.onObject setting o ⟨now, u⟩ s) (Turn.onLatch ⟨now, u⟩ l) := by
  rw [Turn.onObject_of_ok hu hx, Turn.onLatch, hl]
  exact ⟨hk, hat, fun hne => absurd rfl hne⟩

/-- The object and the latch fail alike. -/
theorem mirrors_of_error {f : Fault}
    (hu : u.onObject { setting with now } o = raising (do return k (← x)))
    (hx : x s = .error f s') (hidle : System.Idle o.address l' s')
    (hl : u.onLatch now l = .error f l') :
    Mirrors o.address (Turn.onObject setting o ⟨now, u⟩ s) (Turn.onLatch ⟨now, u⟩ l) := by
  have hobject : Turn.onObject setting o ⟨now, u⟩ s = (.raised (.fault f), s') := by
    simp only [Turn.onObject_apply, hu, raising, Attempt.bind_apply, hx]
  rw [hobject, Turn.onLatch, hl]
  exact ⟨rfl, hidle.latchAt, fun _ => hidle⟩

/-- A call that has its answer in its stay has it on the latch. -/
theorem mirrors_of_answer {c : Call} {r : Reply} {k : Passage → Effect}
    (h : System.Idle o.address l s)
    (hu : u.onObject { setting with now } o =
      raising (do return k (← System.enter now o.address c)))
    (hin : c.inside now now l = .ok (.answer r) l') (hb : l'.Balanced)
    (hl : u.onLatch now l = .ok (k ⟨some r, none⟩).result l') :
    Mirrors o.address (Turn.onObject setting o ⟨now, u⟩ s) (Turn.onLatch ⟨now, u⟩ l) := by
  obtain ⟨s', hrun, hidle⟩ := System.exists_enter_of_answer h hin hb
  exact mirrors_of_ok hu hrun hidle hl

section Uses

variable (h : System.Idle o.address l s)
include h

theorem mirrors_signal (now : Instant) :
    Mirrors o.address (Turn.onObject setting o ⟨now, .signal⟩ s)
      (Turn.onLatch ⟨now, .signal⟩ l) := by
  have hin := Call.inside_signal now now h.balanced
  have hpost := Latch.post_eq h.balanced
  by_cases hp : l.stats.posts = Counter.last
  · rw [if_pos hp] at hin hpost
    obtain ⟨s', hrun, hidle⟩ := System.exists_enter_of_error h hin h.balanced
    refine mirrors_of_error rfl hrun hidle ?_
    simp only [Use.onLatch, Attempt.bind_apply, hpost]
  · rw [if_neg hp] at hin hpost
    obtain ⟨s', hrun, hidle⟩ := System.exists_enter_of_announce h hin (h.balanced.posted hp)
    refine mirrors_of_ok rfl hrun hidle ?_
    simp only [Use.onLatch, Attempt.bind_apply, hpost, Attempt.pure_apply]

theorem mirrors_wait (now : Instant) :
    Mirrors o.address (Turn.onObject setting o ⟨now, .wait⟩ s) (Turn.onLatch ⟨now, .wait⟩ l) := by
  have hin := Call.inside_wait now now h.balanced
  have htake := Latch.take_eq h.balanced
  cases hs : l.signaled with
  | true =>
    rw [hs, if_pos rfl] at hin htake
    refine mirrors_of_answer h rfl hin (h.balanced.taken hs) ?_
    simp only [Use.onLatch, Attempt.bind_apply, htake]
    rfl
  | false =>
    simp only [hs, Bool.false_eq_true, if_false] at hin htake
    obtain ⟨s', g, hrun, -, hcell⟩ := System.exists_enter_of_sleep h hin
    refine mirrors_of_blocked rfl hrun rfl (?_ : s'.latchAt o.address = some l) ?_
    · rw [System.latchAt, hcell]
      rfl
    · simp only [Use.onLatch, Attempt.bind_apply, htake]
      rfl

theorem mirrors_tryWait (now : Instant) :
    Mirrors o.address (Turn.onObject setting o ⟨now, .tryWait⟩ s)
      (Turn.onLatch ⟨now, .tryWait⟩ l) := by
  have hin := Call.inside_tryWait now now h.balanced
  have htake := Latch.take_eq h.balanced
  cases hs : l.signaled with
  | true =>
    rw [hs, if_pos rfl] at hin htake
    refine mirrors_of_answer h rfl hin (h.balanced.taken hs) ?_
    simp only [Use.onLatch, Attempt.bind_apply, htake]
    rfl
  | false =>
    simp only [hs, Bool.false_eq_true, if_false] at hin htake
    refine mirrors_of_answer h rfl hin h.balanced ?_
    simp only [Use.onLatch, Attempt.bind_apply, htake]
    rfl

/-- **A bounded wait takes, or it counts a timeout**, unless it sleeps for ever. -/
theorem mirrors_waitTimeout_of_ok {x : Binary64} {timeout : Duration}
    (hx : Duration.ofSeconds x = .ok timeout) (now : Instant) :
    Mirrors o.address (Turn.onObject setting o ⟨now, .waitTimeout x⟩ s)
      (Turn.onLatch ⟨now, .waitTimeout x⟩ l) := by
  have hu : Use.onObject { setting with now } o (.waitTimeout x) =
      raising (do
        let p ← System.waitOut now o.address timeout
        return { result := waitResult (.waitTimeout timeout) p.1.reply }) := by
    simp only [Use.onObject, invoke, Method.operation, Value.toDuration, Value.toFloat, hx,
      Except.map, perform, Operation.run, waitIn, bind_assoc, pure_bind]
  have htake := Latch.take_eq h.balanced
  cases hs : l.signaled with
  | true =>
    rw [hs, if_pos rfl] at htake
    obtain ⟨s', later, hrun, hidle⟩ := System.exists_waitOut_of_signaled h now timeout hs
    refine mirrors_of_ok hu hrun hidle ?_
    simp only [Use.onLatch, hx, Attempt.bind_apply, htake]
    rfl
  | false =>
    simp only [hs, Bool.false_eq_true, if_false] at htake
    rcases System.exists_waitOut_of_unsignaled h now timeout hs with
      ⟨hnone, s', later, hrun, hat⟩ | ⟨hdue, ht, s', hrun, hidle⟩ |
      ⟨hdue, ht, s', later, hrun, hidle⟩
    · refine mirrors_of_blocked hu hrun rfl hat ?_
      simp only [Use.onLatch, hx, Attempt.bind_apply, htake, hnone]
      rfl
    · refine mirrors_of_error hu hrun hidle ?_
      simp only [Use.onLatch, hx, Attempt.bind_apply, htake, Bool.false_eq_true, if_false,
        if_neg hdue, Latch.recordTimeout_eq, if_pos ht]
    · refine mirrors_of_ok hu hrun hidle ?_
      simp only [Use.onLatch, hx, Attempt.bind_apply, htake, Bool.false_eq_true, if_false,
        if_neg hdue, Latch.recordTimeout_eq, if_neg ht]
      rfl

theorem mirrors_stats (now : Instant) :
    Mirrors o.address (Turn.onObject setting o ⟨now, .stats⟩ s) (Turn.onLatch ⟨now, .stats⟩ l) := by
  have hin : Call.stats.inside now now l = .ok (.answer (.stats l.stats)) l := rfl
  obtain ⟨s', hrun, hidle⟩ := System.exists_enter_of_answer h hin h.balanced
  have hobject : Turn.onObject setting o ⟨now, .stats⟩ s = (.stats l.stats, s') := by
    simp only [Turn.onObject_apply, Use.onObject, invoke, Method.operation, perform,
      Operation.run, raising, Attempt.bind_apply, hrun]
    rfl
  rw [hobject]
  exact ⟨rfl, hidle.latchAt, fun _ => hidle⟩

end Uses

/-- **A number of seconds that is refused has no effect**: the call raises an exception, and
everything stays as it is. -/
theorem onObject_waitTimeout_of_error (setting : Setting) (o : Owner) {x : Binary64}
    {e : SecondsError} (hx : Duration.ofSeconds x = .error e) (now : Instant) (s : System) :
    Turn.onObject setting o ⟨now, .waitTimeout x⟩ s = (.raised (.badSeconds e), s) := by
  simp only [Turn.onObject_apply, Use.onObject, invoke, Method.operation, Value.toDuration,
    Value.toFloat, hx, Except.map, perform]
  rfl

/-- **An object and a latch come out of every turn alike.** -/
theorem mirrors (setting : Setting) (h : System.Idle o.address l s) (t : Turn) :
    Mirrors o.address (t.onObject setting o s) (t.onLatch l) := by
  obtain ⟨now, u⟩ := t
  cases u with
  | signal => exact mirrors_signal h now
  | wait => exact mirrors_wait h now
  | tryWait => exact mirrors_tryWait h now
  | waitTimeout x =>
    cases hx : Duration.ofSeconds x with
    | ok timeout => exact mirrors_waitTimeout_of_ok h hx now
    | error e =>
      have hlatch : Turn.onLatch ⟨now, .waitTimeout x⟩ l = (.raised (.badSeconds e), l) := by
        simp only [Turn.onLatch, Use.onLatch, hx]
        rfl
      rw [onObject_waitTimeout_of_error setting o hx, hlatch]
      exact ⟨rfl, h.latchAt, fun _ => h⟩
  | isSignaled => exact mirrors_of_answer h rfl rfl h.balanced rfl
  | stats => exact mirrors_stats h now
  | text =>
    have hlatch : Use.onLatch now .text l = .ok (.text (objectText l.signaled)) l := by
      rw [objectText_eq]
      rfl
    exact mirrors_of_answer h rfl rfl h.balanced hlatch

/-! ### Whole conversations -/

/-- **An object and a latch come out of every conversation alike.** -/
theorem converse_mirrors (ts : List Turn) :
    ∀ {l : Latch} {s : System}, System.Idle o.address l s →
      (converse (Turn.onObject setting o) ts s).1 = (converse Turn.onLatch ts l).1 ∧
      (converse (Turn.onObject setting o) ts s).2.latchAt o.address =
        some (converse Turn.onLatch ts l).2 := by
  induction ts with
  | nil => exact fun h => ⟨rfl, h.latchAt⟩
  | cons t ts ih =>
    intro l s h
    have hturn := mirrors setting h t
    by_cases hb : (t.onLatch l).1 = .blocked
    · rw [converse_cons_of_blocked (hturn.result_eq.trans hb), converse_cons_of_blocked hb]
      exact ⟨rfl, hturn.latchAt⟩
    · have hb' : (t.onObject setting o s).1 ≠ .blocked := fun he => hb (hturn.result_eq ▸ he)
      obtain ⟨hresults, hlatch⟩ := ih (hturn.idle hb)
      rw [converse_cons_of_ne hb', converse_cons_of_ne hb, hturn.result_eq, hresults]
      exact ⟨rfl, hlatch⟩

/-- **A new object has an event of its own**, fresh and with nobody asleep. -/
theorem idle_of_construct (hs : s.Unarmed) (h : construct setting [] s = (.ok o, s')) :
    System.Idle o.address .fresh s' := by
  simp only [construct, List.isEmpty_nil, if_true, Owner.create, Attempt.bind_apply,
    System.create_of_unarmed hs] at h
  cases ha : (s.askMemory setting.policy .system).1 with
  | none =>
    simp only [ha] at h
    cases h
  | some a =>
    simp only [ha] at h
    cases h
    have hasked : (s.askMemory setting.policy .system).2.Unarmed :=
      (congrArg Logger.armed (s.logger_askMemory ..)).trans hs
    refine ⟨System.unarmed_noted hasked _, Latch.balanced_fresh, .system, ?_⟩
    exact System.cell?_place_self ..

/-- **A bounded wait with no time at all** is an attempt to consume a signal, and the timeout is
counted if there is none. -/
theorem onLatch_waitTimeout_of_zero {x : Binary64} (hx : Duration.ofSeconds x = .ok .zero)
    (now : Instant) :
    Use.onLatch now (.waitTimeout x) = (do
      let r ← Use.onLatch now .tryWait
      if r = .bool false then
        Latch.recordTimeout
      return r) := by
  have hdue : now.add? .zero ≠ none := fun hnone => by
    have hpast := Instant.add?_eq_none_iff.mp hnone
    have hnow := Instant.le_iff_toNanos_le.mp now.le_last
    have hzero := Duration.toNanos_eq_zero.mpr rfl
    omega
  simp only [Use.onLatch, hx, bind_assoc, pure_bind, if_neg hdue]
  refine bind_congr fun taken => ?_
  cases taken with
  | true => rfl
  | false => rfl

/-- **A thread with a new object sees the history of a latch.** The results of any list of turns
are those that a fresh latch gives, and so is the latch that the event is left with.

A number of seconds is refused exactly if it is no number, below zero, or `2 ^ 64` or more. The
exception is raised whatever state the event is in, nothing changes, and what the thread does
afterwards goes on as if the call had not been made. Any other number is rounded to the nearest
nanosecond. What rounds to no time at all, as a zero of either sign does, makes the bounded wait an
attempt to consume a signal that counts a timeout if there is none. -/
theorem object_refines_latch {setting : Setting} {s s₁ : System} {o : Owner} (hs : s.Unarmed)
    (hnew : construct setting [] s = (.ok o, s₁)) :
    (∀ ts,
      (converse (Turn.onObject setting o) ts s₁).1 = (converse Turn.onLatch ts .fresh).1 ∧
      (converse (Turn.onObject setting o) ts s₁).2.latchAt o.address =
        some (converse Turn.onLatch ts .fresh).2) ∧
    (∀ x now, Duration.Refused x → ∃ e : Raised, e.className = "ValueError" ∧ ∀ ts s,
      converse (Turn.onObject setting o) (⟨now, .waitTimeout x⟩ :: ts) s =
        (.raised e :: (converse (Turn.onObject setting o) ts s).1,
          (converse (Turn.onObject setting o) ts s).2)) ∧
    (∀ x, ¬Duration.Refused x → ∃ d, Duration.ofSeconds x = .ok d ∧
      ∃ q : ℚ, x.exactValue? = some (q : Binary64.Exact) ∧ |(d.toNanos : ℚ) - q * 10 ^ 9| ≤ 1 / 2) ∧
    Duration.Vanishes (.zero true) ∧
    ∀ x now, Duration.Vanishes x → Use.onLatch now (.waitTimeout x) = (do
      let r ← Use.onLatch now .tryWait
      if r = .bool false then
        Latch.recordTimeout
      return r) := by
  refine ⟨fun ts => converse_mirrors ts (idle_of_construct hs hnew), fun x now hx => ?_,
    fun x hx => ?_, Duration.vanishes_zero true, fun x now hx => ?_⟩
  · obtain ⟨e, he⟩ := Duration.ofSeconds_eq_error_iff.mpr hx
    refine ⟨.badSeconds e, rfl, fun ts s => ?_⟩
    have hturn := onObject_waitTimeout_of_error setting o he now s
    rw [converse_cons_of_ne (by rw [hturn]; exact nofun), hturn]
  · cases hd : Duration.ofSeconds x with
    | error e => exact absurd (Duration.ofSeconds_eq_error_iff.mp ⟨e, hd⟩) hx
    | ok d => exact ⟨d, rfl, Duration.abs_sub_le_of_ofSeconds hd⟩
  · exact onLatch_waitTimeout_of_zero (Duration.ofSeconds_eq_zero_iff.mpr hx) now

/-- A signal is pending, and a bounded wait for what is no number of seconds leaves it there. The
next one, for a negated zero, consumes it; the one after that finds none and counts a timeout. -/
theorem object_refines_latch_negated_zero :
    ∃ o s₁, construct {} [] .empty = (.ok o, s₁) ∧
      (converse (Turn.onObject {} o)
        ([.signal, .waitTimeout .notANumber, .waitTimeout (.zero true), .waitTimeout (.zero true),
          .stats].map (⟨Clock.settled, ·⟩)) s₁).1 =
        [.none, .raised (.badSeconds .tooLarge), .bool true, .bool false,
          .stats { posts := 1, consumed := 1, timeouts := 1 }] := by
  obtain ⟨o, s₁, hnew⟩ : ∃ o s₁, construct {} [] .empty = (.ok o, s₁) := ⟨_, _, rfl⟩
  obtain ⟨hhistory, -⟩ := object_refines_latch (show System.empty.Unarmed from rfl) hnew
  refine ⟨o, s₁, hnew, ?_⟩
  rw [(hhistory _).1]
  decide +kernel

end Dynamic

end AutoReset
