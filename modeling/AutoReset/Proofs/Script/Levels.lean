import AutoReset.Proofs.Script.Likeness
/-!
# The level of the log is seen in the log alone

A record is made if the logger takes in records of its level, and nothing else depends on that
as long as the log sink is not armed. So a script can be run with less on record: the records
that are made are those of the fuller log that the lower level takes in
(`AutoReset.Record.fits`), in the same order, and everything else is as it was. This is said by
equations. To lower the level of what came of a script is to run the script with the level
lowered (`AutoReset.Script.run_upTo`), be it that the script is refused, and the same goes for
every step of it (`AutoReset.Script.Step.report_upTo`) and for the world that it leaves
(`AutoReset.Script.reports_upTo`).

Behind it is a relation between systems that differ in nothing but their loggers
(`AutoReset.System.Observed`). Whatever is known of the two loggers, no operation sees through
it if it goes on being known when one more record is made, and says that neither sink is armed
(`AutoReset.System.congruence_observed`).
-/

namespace AutoReset

/-! ### Levels -/

/-- The place of the least important level that is taken in; off is below all of them. -/
def Level.height : Option Level → Nat
  | none => 0
  | some level => level.rank

/-- Is the record made by a logger that takes in records up to this level? -/
def Record.fits (limit : Option Level) (r : Record) : Bool := ({ limit } : Logger).admits r.level

variable {lo hi : Option Level} {r : Record}

/-- What is made at the lower level is made at the higher one. -/
theorem Record.fits_of_le (h : Level.height lo ≤ Level.height hi) (hr : r.fits lo = true) :
    r.fits hi = true := by
  cases lo with
  | none => cases hr
  | some level =>
    have hlevel : r.level.rank ≤ level.rank := of_decide_eq_true hr
    cases hi with
    | none =>
      have hzero : level.rank ≤ 0 := h
      cases level <;> exact absurd hzero (by decide)
    | some level' =>
      have hle : level.rank ≤ level'.rank := h
      exact decide_eq_true (Nat.le_trans hlevel hle)

/-- At the level of the least important records, every record is made. -/
theorem Record.fits_trace (r : Record) : r.fits (some .trace) = true := by
  cases r <;> rfl

namespace Logger

/-- The logger that takes in records up to this level only, and did so all along. -/
def upTo (limit : Option Level) (l : Logger) : Logger where
  limit := limit
  armed := l.armed
  records := l.records.filter (Record.fits limit)

theorem noted_eq (l : Logger) (r : Record) :
    l.noted r = { l with records := l.records ++ if r.fits l.limit then [r] else [] } := by
  show (if l.admits r.level then _ else _) = _
  rw [show r.fits l.limit = l.admits r.level from rfl]
  split <;> simp

theorem limit_noted (l : Logger) (r : Record) : (l.noted r).limit = l.limit := by
  rw [noted_eq]

/-- Records that were made stay. -/
theorem prefix_noted (l : Logger) (r : Record) : l.records <+: (l.noted r).records := by
  rw [noted_eq]
  exact List.prefix_append ..

/-- **One record more**, at the lower level and at the higher one. -/
theorem noted_upTo {l : Logger} (h : Level.height lo ≤ Level.height l.limit) (r : Record) :
    (l.upTo lo).noted r = (l.noted r).upTo lo := by
  rw [noted_eq, noted_eq]
  show ({ limit := lo, armed := l.armed, records := _ ++ if r.fits lo then [r] else [] } : Logger) =
    { limit := lo, armed := l.armed, records := List.filter _ (_ ++ _) }
  rw [List.filter_append]
  cases hr : r.fits lo with
  | true => simp [upTo, Record.fits_of_le h hr, hr]
  | false => cases hl : r.fits l.limit <;> simp [upTo, hr]

end Logger

/-! ### Systems that differ in their loggers -/

/-- **Is it known of two loggers that neither sink is armed**, and is the same known of them
after one record more? -/
structure Logger.Steady (L : Logger → Logger → Prop) : Prop where
  unarmed : ∀ {l l'}, L l l' → l.armed = false ∧ l'.armed = false
  noted : ∀ {l l'}, L l l' → ∀ r, L (l.noted r) (l'.noted r)

/-- No two sinks that are not armed ever will be. -/
theorem Logger.steady_unarmed : Steady fun l l' => l.armed = false ∧ l'.armed = false where
  unarmed := id
  noted := fun h _ => ⟨(armed_noted ..).trans h.1, (armed_noted ..).trans h.2⟩

/-- **The second logger is the first one at a lower level**, and has been since the records of
before. -/
structure Logger.Hushed (lo : Option Level) (before : List Record) (l l' : Logger) : Prop where
  eq : l' = l.upTo lo
  le : Level.height lo ≤ Level.height l.limit
  unarmed : l.armed = false
  grows : before <+: l.records

theorem Logger.steady_hushed (lo : Option Level) (before : List Record) :
    Steady (Hushed lo before) where
  unarmed := by
    rintro l _ ⟨rfl, -, h, -⟩
    exact ⟨h, h⟩
  noted := by
    rintro l _ ⟨rfl, hle, h, hgrows⟩ r
    exact ⟨noted_upTo hle r, by rwa [limit_noted], (armed_noted ..).trans h,
      hgrows.trans (l.prefix_noted r)⟩

namespace System

open Attempt

/-- **Two systems that differ in nothing but their loggers**, of which this is known. -/
def Observed (L : Logger → Logger → Prop) (s s' : System) : Prop :=
  ∃ l', s' = { s with logger := l' } ∧ L s.logger l'

theorem askMemory_logger (policy : Placement) (o : Origin) (s : System) (l : Logger) :
    ({ s with logger := l } : System).askMemory policy o =
      ((s.askMemory policy o).1, { (s.askMemory policy o).2 with logger := l }) := by
  cases o with
  | system => rfl
  | ledger k =>
    have hk : ({ s with logger := l } : System).ledger? k = s.ledger? k := rfl
    simp only [askMemory, hk]
    cases s.ledger? k <;> rfl

theorem giveBack_logger (o : Origin) (a : Address) (s : System) (l : Logger) :
    ({ s with logger := l } : System).giveBack o a = { s.giveBack o a with logger := l } := by
  cases o with
  | system => rfl
  | ledger k =>
    have hk : ({ s with logger := l } : System).ledger? k = s.ledger? k := rfl
    simp only [giveBack, hk]
    cases s.ledger? k <;> rfl

/-- **No operation looks at the logger.** -/
theorem congruence_observed (policy : Placement) {L : Logger → Logger → Prop}
    (hL : Logger.Steady L) : Congruence policy (Observed L) where
  cell := by
    rintro s _ ⟨l', rfl, -⟩ a
    rfl
  place := by
    rintro s _ ⟨l', rfl, h⟩ a c
    exact ⟨l', rfl, h⟩
  log := by
    rintro r s _ ⟨l', rfl, h⟩
    obtain ⟨hs, hs'⟩ := hL.unarmed h
    have hlog := log_of_unarmed (s := s) hs r
    have hlog' := log_of_unarmed (s := { s with logger := l' }) hs' r
    rw [outcome, outcome, after, after, hlog, hlog']
    exact ⟨rfl, l'.noted r, rfl, hL.noted h r⟩
  ask := by
    rintro s _ ⟨l', rfl, h⟩ o
    rw [askMemory_logger]
    exact ⟨rfl, l', rfl, by rwa [logger_askMemory]⟩
  giveBack := by
    rintro s _ ⟨l', rfl, h⟩ o a
    exact ⟨l', giveBack_logger .., by rwa [logger_giveBack]⟩
  setUp := by
    rintro plan s _ ⟨l', rfl, h⟩
    exact ⟨rfl, l', rfl, h⟩

end System

namespace Script

/-! ### Worlds and reports at a lower level -/

/-- The world in which records were made up to this level only. -/
def World.upTo (limit : Option Level) (w : World) : World :=
  { w with system.logger := w.system.logger.upTo limit }

/-- The report with the records up to this level only. -/
def Report.upTo (limit : Option Level) (r : Report) : Report :=
  { r with log := r.log.filter (Record.fits limit) }

/-- What comes of a script, with the records up to this level only. -/
def Outcome.upTo (limit : Option Level) (o : Outcome) : Outcome :=
  { o with steps := o.steps.map (Report.upTo limit) }

/-- Can this world be run at a lower level? The log sink is not armed, and the level is lower
indeed. -/
structure World.Audible (lo : Option Level) (w : World) : Prop where
  unarmed : w.system.Unarmed
  le : Level.height lo ≤ Level.height w.system.logger.limit

section Steps

variable {setting : Setting} {w w' : World} {s : Step} {answer : Answer} {steps : List Step}

theorem World.Audible.like (h : w.Audible lo) :
    w.Like (System.Observed (Logger.Hushed lo w.system.logger.records)) (w.upTo lo) :=
  ⟨⟨_, rfl, rfl, h.le, h.unarmed, List.prefix_rfl⟩, rfl, rfl⟩

/-- A step that is refused is not reported. -/
theorem Step.report_of_error {m : Misuse} (h : s.run setting w = .error m) :
    s.report setting w = .error m := by
  rw [Step.report, Act.get_bind, Act.bind_of_error h]

/-- What is wrong with a step does not depend on the level. -/
theorem Step.misuse?_upTo (s : Step) (lo : Option Level) (w : World) :
    s.misuse? (w.upTo lo) = s.misuse? w := by
  have hneed : Need.misuse? (w.upTo lo) = Need.misuse? w := by
    funext n
    rcases n with v | v | v | (_ | name) <;> rfl
  rw [misuse?, misuse?, hneed]

/-- **A step at a lower level** has the same answer, and leaves the same world at that level. -/
theorem Step.run_upTo (h : w.Audible lo) (hs : s ≠ .armLog)
    (hrun : s.run setting w = .ok (answer, w')) :
    s.run setting (w.upTo lo) = .ok (answer, w'.upTo lo) ∧ w'.Audible lo ∧
      w.system.logger.records <+: w'.system.logger.records := by
  have hcongr := System.congruence_observed setting.policy
    (Logger.steady_hushed lo w.system.logger.records)
  obtain ⟨w₁', hrun', hlike⟩ := Step.blind hcongr hs h.like hrun
  obtain ⟨⟨l', hsystem, rfl, hle, hunarmed, hgrows⟩, hvars, hallocators⟩ := hlike
  have hw : w₁' = w'.upTo lo := by
    cases w₁'
    cases hsystem
    cases hvars
    cases hallocators
    rfl
  exact ⟨hw ▸ hrun', ⟨hunarmed, hle⟩, hgrows⟩

/-- **What is reported of a step at a lower level** is what is reported of it, less the records
above that level. -/
theorem Step.report_upTo (h : w.Audible lo) (hs : s ≠ .armLog)
    (hrun : s.run setting w = .ok (answer, w')) :
    s.report setting (w.upTo lo) = .ok ((Report.between s answer w w').upTo lo, w'.upTo lo) := by
  obtain ⟨hrun', -, since, hsince⟩ := Step.run_upTo h hs hrun
  refine (Step.report_of_run hrun').trans ?_
  have hlog : (w'.upTo lo).system.logger.records.drop (w.upTo lo).system.logger.records.length =
      (w'.system.logger.records.drop w.system.logger.records.length).filter (Record.fits lo) := by
    show (w'.system.logger.records.filter _).drop (w.system.logger.records.filter _).length = _
    rw [← hsince, List.filter_append, List.drop_left, List.drop_left]
  rw [Report.between, hlog]
  rfl

/-- **A script at a lower level** is refused where it is refused, and otherwise what is reported
of its steps, and the world that it leaves, are the same but for the records. -/
theorem reports_upTo (h : w.Audible lo) (hsteps : .armLog ∉ steps) :
    reports setting steps (w.upTo lo) =
      (reports setting steps w).map fun p => (p.1.map (Report.upTo lo), p.2.upTo lo) := by
  induction steps generalizing w with
  | nil => rfl
  | cons s steps ih =>
    obtain ⟨hs, hsteps⟩ := List.ne_and_not_mem_of_not_mem_cons hsteps
    rw [reports]
    cases hrun : s.run setting w with
    | error m =>
      -- what is wrong with a step is wrong with it in both
      have hrun' : s.run setting (w.upTo lo) = .error m :=
        Step.run_eq_error_iff.mpr ((s.misuse?_upTo lo w).trans (Step.run_eq_error_iff.mp hrun))
      rw [Act.bind_of_error (Step.report_of_error hrun),
        Act.bind_of_error (Step.report_of_error hrun')]
      rfl
    | ok p =>
      obtain ⟨answer, w'⟩ := p
      obtain ⟨-, hw', -⟩ := Step.run_upTo h hs.symm hrun
      rw [Act.bind_of_ok (Step.report_of_run hrun),
        Act.bind_of_ok (Step.report_upTo h hs.symm hrun)]
      cases hrest : reports setting steps w' with
      | error m =>
        have hrest' : reports setting steps (w'.upTo lo) = .error m := by
          rw [ih hw' hsteps, hrest]
          rfl
        rw [Act.bind_of_error hrest, Act.bind_of_error hrest']
        rfl
      | ok q =>
        have hrest' : reports setting steps (w'.upTo lo) =
            .ok (q.1.map (Report.upTo lo), q.2.upTo lo) := by
          rw [ih hw' hsteps, hrest]
          rfl
        rw [Act.bind_of_ok hrest, Act.bind_of_ok hrest']
        rfl

end Steps

/-- The owners that are left leave the same accounts. -/
theorem World.ledgers_finish_upTo {w : World} (h : w.system.Unarmed) :
    (w.upTo lo).finish.ledgers = w.finish.ledgers := by
  have hcongr := System.congruence_observed .firstFit Logger.steady_unarmed
  have hfold : ∀ (os : List Owner) (s s' : System),
      System.Observed (fun l l' => l.armed = false ∧ l'.armed = false) s s' →
      System.Observed (fun l l' => l.armed = false ∧ l'.armed = false)
        (os.foldl (fun s o => o.drop.after s) s) (os.foldl (fun s o => o.drop.after s) s') := by
    intro os
    induction os with
    | nil => exact fun _ _ hs => hs
    | cons o os ih => exact fun _ _ hs => ih _ _ (hcongr.release o.address hs).2
  obtain ⟨l', hl', -⟩ := hfold w.owners { w.system with logger.limit := none }
    { (w.upTo lo).system with logger.limit := none } ⟨_, rfl, h, h⟩
  rw [ledgers, ledgers, system_finish, system_finish]
  show Table.filterMap _ _ = _
  rw [show (w.upTo lo).owners = w.owners from rfl, hl']
  rfl

/-- **Logging is a pure observer.** To run a script with logging up to a lower level is to leave
out of what comes of it the records above that level. -/
theorem run_upTo {setting : Setting} {steps : List Step}
    (hle : Level.height lo ≤ Level.height hi) (hsteps : .armLog ∉ steps) :
    Script.run setting lo steps = (Script.run setting hi steps).map (Outcome.upTo lo) := by
  have hstart : (World.start hi).Audible lo := ⟨rfl, hle⟩
  have hreports : reports setting steps ((World.start hi).upTo lo) = _ := reports_upTo hstart hsteps
  rw [run, run, show World.start lo = (World.start hi).upTo lo from rfl, hreports]
  cases hrun : reports setting steps (World.start hi) with
  | error m => rfl
  | ok p =>
    obtain ⟨rs, w⟩ := p
    have hunarmed : w.system.Unarmed := unarmed_of_reports hstart.unarmed hsteps hrun
    simp only [Except.map, World.ledgers_finish_upTo hunarmed]
    rfl

end Script

end AutoReset
