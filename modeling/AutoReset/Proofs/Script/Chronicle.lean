import AutoReset.Proofs.Script.Records
import AutoReset.Proofs.Script.Refusal
/-!
# The log tells what a script did

The log changes nothing, and it leaves nothing out. That it changes nothing is said by the
equations of `AutoReset.Script.run_upTo`. That it leaves nothing out is the subject of this file.

Where every record is made, the records of a step are those of what it did about the memory of
events (`AutoReset.Script.Step.deeds`), one for each deed, and after them one for a bounded wait
that ran out and was counted (`AutoReset.Script.World.Keeps.recorded`). Over a whole script this
makes the log, less the timeouts, the list of its deeds
(`AutoReset.Script.World.Keeps.records`).

What the deeds of a step are can be seen without them. An event was created if it is there now
and was not before, and released if it was and is not; there was no memory if the caller is told
so; and a bounded wait ran out if a counter says so. Each of these has its one record, in the words
that are meant for it (`AutoReset.Record.Reads`), and there are no others
(`AutoReset.Script.Report.Tells`). For at most one event that was there is released
by a step, at most one is asked for, and what is created stands where nothing stood
(`AutoReset.Script.Step.Does`).
-/

namespace AutoReset

namespace Record

/-- Does the record say that a bounded wait ran out? -/
def isTimeout : Record → Bool
  | timedOut _ => true
  | _ => false

/-- **How a record is written**: its level, and the line for it. A lack of memory is a warning, and
all else is a step. -/
inductive Reads : Record → Level → String → Prop
  /-- An event was created. -/
  | created (a : Address) :
    Reads (created a) .trace "TRACE alice_event::event event created at <ptr>"
  /-- There was no memory for an event. -/
  | allocationFailed (n : Nat) :
    Reads (allocationFailed n) .warn "WARN alice_event::event event allocation failed (<n> bytes)"
  /-- An event was released. -/
  | released (a : Address) :
    Reads (released a) .trace "TRACE alice_event::event event released at <ptr>"
  /-- A bounded wait ran out. -/
  | timedOut (d : Duration) :
    Reads (timedOut d) .trace "TRACE alice_event::event event wait timed out after <elapsed>"

theorem reads (r : Record) : r.Reads r.level r.text := by
  cases r with
  | created a => exact .created a
  | allocationFailed n => exact .allocationFailed n
  | released a => exact .released a
  | timedOut d => exact .timedOut d

end Record

namespace Deed

/-- Was there no memory? -/
def isRefusal : Deed → Bool
  | created _ none => true
  | _ => false

/-- The records of deeds, which are listed newest first, and of the timeouts after them. -/
def log (ds : List Deed) (ts : List Duration) : List Record :=
  ds.reverse.map record ++ ts.map .timedOut

section Log

variable {ds : List Deed} {ts : List Duration} {a : Address}

theorem isTimeout_record (d : Deed) : d.record.isTimeout = false := by
  rcases d with ⟨o, _ | a⟩ | a <;> rfl

theorem mem_log {r : Record} :
    r ∈ log ds ts ↔ (∃ d ∈ ds, d.record = r) ∨ ∃ t ∈ ts, Record.timedOut t = r := by
  simp only [log, List.mem_append, List.mem_map, List.mem_reverse]

theorem created_mem_log : .created a ∈ log ds ts ↔ ∃ o, created o (some a) ∈ ds := by
  rw [mem_log]
  constructor
  · rintro (⟨⟨o, _ | b⟩ | b, hd, hr⟩ | ⟨t, -, ht⟩)
    · cases hr
    · cases hr
      exact ⟨o, hd⟩
    · cases hr
    · cases ht
  · rintro ⟨o, ho⟩
    exact Or.inl ⟨_, ho, rfl⟩

theorem released_mem_log : .released a ∈ log ds ts ↔ released a ∈ ds := by
  rw [mem_log]
  constructor
  · rintro (⟨⟨o, _ | b⟩ | b, hd, hr⟩ | ⟨t, -, ht⟩)
    · cases hr
    · cases hr
    · cases hr
      exact hd
    · cases ht
  · exact fun ha => Or.inl ⟨_, ha, rfl⟩

theorem allocationFailed_mem_log {n : Nat} :
    .allocationFailed n ∈ log ds ts ↔ n = Cell.layout.size ∧ ∃ o, created o none ∈ ds := by
  rw [mem_log]
  constructor
  · rintro (⟨⟨o, _ | b⟩ | b, hd, hr⟩ | ⟨t, -, ht⟩)
    · cases hr
      exact ⟨rfl, o, hd⟩
    · cases hr
    · cases hr
    · cases ht
  · rintro ⟨rfl, o, ho⟩
    exact Or.inl ⟨_, ho, rfl⟩

theorem timedOut_mem_log {t : Duration} : .timedOut t ∈ log ds ts ↔ t ∈ ts := by
  rw [mem_log]
  constructor
  · rintro (⟨d, -, hr⟩ | ⟨t', ht, heq⟩)
    · have hfalse := d.isTimeout_record
      rw [hr] at hfalse
      cases hfalse
    · cases heq
      exact ht
  · exact fun ht => Or.inr ⟨t, ht, rfl⟩

/-- The records that are not of timeouts are those of the deeds. -/
theorem filter_log :
    (log ds ts).filter (fun r => !r.isTimeout) = ds.reverse.map record := by
  have hdeeds : ∀ r ∈ ds.reverse.map record, (!r.isTimeout) = true := by
    intro r hr
    obtain ⟨d, -, rfl⟩ := List.mem_map.mp hr
    rw [d.isTimeout_record]
    rfl
  have htimeouts : ∀ r ∈ ts.map Record.timedOut, ¬(!r.isTimeout) = true := by
    intro r hr
    obtain ⟨t, -, rfl⟩ := List.mem_map.mp hr
    exact nofun
  rw [log, List.filter_append, List.filter_eq_self.mpr hdeeds, List.filter_eq_nil_iff.mpr htimeouts,
    List.append_nil]

theorem countP_log : (log ds ts).countP Record.isTimeout = ts.length := by
  have hdeeds : (ds.reverse.map record).countP Record.isTimeout = 0 := by
    rw [List.countP_eq_zero]
    intro r hr
    obtain ⟨d, -, rfl⟩ := List.mem_map.mp hr
    simp only [isTimeout_record, Bool.false_eq_true, not_false_eq_true]
  have htimeouts : (ts.map Record.timedOut).countP Record.isTimeout = ts.length := by
    rw [List.countP_map]
    exact List.countP_eq_length.mpr fun _ _ => rfl
  rw [log, List.countP_append, hdeeds, htimeouts, Nat.zero_add]

/-- There is a warning for each time that there was no memory. -/
theorem countP_warn_log :
    (log ds ts).countP (fun r => r.level = .warn) = ds.countP isRefusal := by
  have htimeouts : (ts.map Record.timedOut).countP (fun r => r.level = .warn) = 0 := by
    rw [List.countP_eq_zero]
    intro r hr
    obtain ⟨t, -, rfl⟩ := List.mem_map.mp hr
    exact of_decide_eq_false rfl
  have hdeed : ((fun r : Record => decide (r.level = .warn)) ∘ record) = isRefusal := by
    funext d
    rcases d with ⟨o, _ | a⟩ | a <;> rfl
  rw [log, List.countP_append, htimeouts, Nat.add_zero, List.countP_map, hdeed,
    (List.reverse_perm ds).countP_eq]

/-- No record stands twice if the records of the deeds differ and there is one timeout at
most. -/
theorem nodup_log (hds : (ds.reverse.map record).Nodup) (hts : ts.length ≤ 1) :
    (log ds ts).Nodup := by
  rw [log, List.nodup_append]
  refine ⟨hds, ?_, ?_⟩
  · obtain _ | ⟨t, _ | ⟨t', ts⟩⟩ := ts
    · exact List.nodup_nil
    · exact List.nodup_singleton _
    · exact absurd hts (by simp)
  · rintro r hr _ hr' rfl
    obtain ⟨d, -, rfl⟩ := List.mem_map.mp hr
    obtain ⟨t, -, ht⟩ := List.mem_map.mp hr'
    have hfalse := d.isTimeout_record
    rw [← ht] at hfalse
    cases hfalse

end Log

end Deed

/-- The events that are there are those that are left of the deeds. -/
theorem System.Accounts.isSome_cell?_iff {s : System} {ds : List Deed} (h : s.Accounts ds)
    {a : Address} : (s.cell? a).isSome ↔ a ∈ (Deed.left ds).map Prod.snd := by
  rw [List.mem_map]
  constructor
  · intro ha
    obtain ⟨c, hc⟩ := Option.isSome_iff_exists.mp ha
    exact ⟨(c.origin, a), (h.cells c.origin a).mpr (by rw [hc]; rfl), rfl⟩
  · rintro ⟨⟨o, _⟩, he, rfl⟩
    obtain ⟨c, hc, -⟩ := Option.map_eq_some_iff.mp ((h.cells o _).mp he)
    exact Option.isSome_iff_exists.mpr ⟨c, hc⟩

namespace Script

/-! ### What a step puts on record -/

/-- **What a step puts on record** where every record is made: each of its deeds, and after them
the timeouts, which have been counted. -/
structure Step.Recorded (setting : Setting) (s : Step) (answer : Answer) (w w' : World)
    (ds : List Duration) : Prop where
  /-- These are the records. -/
  writes : System.Writes (Deed.log (s.deeds setting.policy w answer) ds) w.system w'.system
  /-- One bounded wait ran out at most. -/
  one : ds.length ≤ 1
  /-- It is one on the event that the step is about. -/
  there : ds ≠ [] → ∃ b, s.subject?.bind w.address? = some b ∧ (w'.system.cell? b).isSome
  /-- It was counted, and no other was. -/
  counted : ∀ b c, w'.system.cell? b = some c →
    c.timeouts = w.system.timeoutsAt b +
      if s.subject?.bind w.address? = some b then ds.length else 0

namespace World

variable {w : World} {v : String} {x : Variable}

theorem dropped_eq (w : World) (v : String) :
    w.dropped v = ((w.owned? v).map Deed.released).toList := by
  rw [dropped, owned?]
  rcases w.vars.get? v with _ | o | k <;> rfl

theorem reverse_dropped (w : World) (v : String) : (w.dropped v).reverse = w.dropped v := by
  rw [dropped_eq]
  cases w.owned? v <;> rfl

/-- **An owner that makes way** puts the release of its event on record, if the event is there and
is not the one that is put in its place. -/
theorem writes_displaced (h : w.system.Attentive)
    (hw : ∀ a, w.owned? v = some a → (w.system.cell? a).isSome ∧ x.address? ≠ some a) :
    System.Writes ((w.dropped v).map Deed.record) w.system (w.displaced v x) := by
  rw [dropped_eq, displaced]
  cases ho : w.owned? v with
  | none => exact .of_eq rfl
  | some a =>
    obtain ⟨hthere, hx⟩ := hw a ho
    simp only [if_pos hx]
    exact h.writes_release hthere

/-- What makes way is gone, and nothing else has changed. -/
theorem of_cell?_displaced {b : Address} {c : Cell}
    (h : (w.displaced v x).cell? b = some c) : w.system.cell? b = some c := by
  rw [cell?_displaced] at h
  split at h
  · cases h
  · exact h

/-- What a variable refers to is there. -/
theorem Keeps.isSome_cell? {ds : List Deed} (h : w.Keeps ds) (hx : w.vars.get? v = some x)
    {a : Address} (ha : x.address? = some a) : (w.system.cell? a).isSome :=
  h.accounts.isSome_cell?_iff.mpr (h.address_mem hx ha)

/-- What a variable owns is there. -/
theorem Keeps.isSome_of_owned? {ds : List Deed} (h : w.Keeps ds) {a : Address}
    (ha : w.owned? v = some a) : (w.system.cell? a).isSome :=
  h.isSome_cell? (owned?_eq_some_iff.mp ha) rfl

end World

section Steps

variable {setting : Setting} {w w' : World} {s : Step} {answer : Answer} {ds : List Deed}
  {v : String} {x : Variable}

/-- A step that makes no call has no timeout to count. -/
theorem Step.Recorded.of_events
    (hwrites : System.Writes ((s.deeds setting.policy w answer).reverse.map Deed.record)
      w.system w'.system)
    (hcells : ∀ b c, w'.system.cell? b = some c → c.timeouts = w.system.timeoutsAt b) :
    s.Recorded setting answer w w' [] where
  writes := by simpa [Deed.log] using hwrites
  one := by simp
  there := fun h => absurd rfl h
  counted := by
    intro b c hc
    simpa using hcells b c hc

/-- A step that leaves the system as it is puts nothing on record. -/
theorem Step.Recorded.of_system (hdeeds : s.deeds setting.policy w answer = [])
    (hsystem : w'.system = w.system) : s.Recorded setting answer w w' [] :=
  .of_events (by rw [hdeeds]; exact .of_eq (congrArg System.logger hsystem)) fun _ _ hc =>
    (System.timeoutsAt_of_some (hsystem ▸ hc)).symm

/-- What is put over an owner puts the release of its event on record. -/
theorem Step.Recorded.of_assigned (h : w.system.Attentive)
    (hw : ∀ a, w.owned? v = some a → (w.system.cell? a).isSome ∧ x.address? ≠ some a)
    (hdeeds : s.deeds setting.policy w answer = w.dropped v) :
    s.Recorded setting answer w (w.assigned v x) [] := by
  refine .of_events ?_ fun b c hc =>
    (System.timeoutsAt_of_some (World.of_cell?_displaced hc)).symm
  rw [hdeeds, w.reverse_dropped]
  exact World.writes_displaced h hw

/-- A call puts its timeout on record, and has no deeds. -/
theorem Step.Recorded.of_call (h : w.system.Attentive) {y : Attempt System Answer}
    (hv : s.subject? = some v) (hx : w.vars.get? v = some x) (hy : s.call? setting x = some y)
    (hrun : s.run setting w = .ok (answer, w')) : ∃ ds, s.Recorded setting answer w w' ds := by
  cases (Step.run_of_call hv hx hy).symm.trans hrun
  have hdeeds : ∀ answer, s.deeds setting.policy w answer = [] := by
    intro answer
    cases s <;> first | rfl | cases hy
  have haddress : s.subject?.bind w.address? = x.address? := by
    rw [hv]
    exact World.address?_eq hx
  obtain ⟨ds, hds, hone⟩ := Step.expires_call? hy h
  refine ⟨ds, ?_, hone, fun hne => haddress ▸ hds.there hne, fun b c hc => ?_⟩
  · rw [hdeeds]
    exact hds.writes
  · rw [haddress, ← hds.counted b]
    exact (System.timeoutsAt_of_some hc).symm

/-- The deeds of a creation: the request, and the release of an owner that makes way. -/
theorem Step.deeds_of_creation {c : Creation} {o : Origin} (hc : s.creation? = some c)
    (ho : w.origin? c.memory = some o) (policy : Placement) (answer : Answer) :
    s.deeds policy w answer = (if answer.holds then w.dropped c.target else []) ++
      [.created o (w.system.askMemory policy o).1] := by
  have hsought : w.sought policy c.memory = [.created o (w.system.askMemory policy o).1] := by
    rw [World.sought, ho]
    rfl
  rw [← hsought]
  cases s with
  | new v memory | create v memory | createForeign v =>
    cases hc
    rfl
  | _ => cases hc

/-- **A creation puts itself on record**, and after it the release of an owner that makes way for
the event. -/
theorem Step.Recorded.of_creation (h : w.Keeps ds) (hw : w.system.Attentive) {c : Creation}
    (hc : s.creation? = some c) (hrun : s.run setting w = .ok (answer, w')) :
    s.Recorded setting answer w w' [] := by
  obtain ⟨o, ho⟩ := Step.exists_origin hc hrun
  cases (Step.run_creation_of_unarmed hc ho hw.unarmed).symm.trans hrun
  obtain ⟨r, h', hask, hgrants⟩ := w.system.grants_askMemory setting.policy o
  have hr : (w.system.askMemory setting.policy o).1 = r := congrArg Prod.fst hask
  have hwrites := hw.writes_create setting.policy o
  have hcells := System.cell?_after_create setting.policy o hw.unarmed
  rw [hr] at hwrites hcells ⊢
  -- the new event is at an address of its own
  have hfresh : ∀ b, r = some b → w.system.cell? b = none := by
    intro b hb
    refine Option.not_isSome_iff_eq_none.mp fun hthere => ?_
    exact h.accounts.fresh_of_grants hgrants hb (h.accounts.isSome_cell?_iff.mp hthere)
  have hcreated : ∀ b e, (w.afterCreate setting.policy o).system.cell? b = some e →
      e.timeouts = w.system.timeoutsAt b := by
    intro b e he
    replace he := (hcells b).symm.trans he
    split at he
    · next hb =>
      cases he
      rw [System.timeoutsAt, hfresh b hb]
      rfl
    · exact (System.timeoutsAt_of_some he).symm
  have hdeeds := Step.deeds_of_creation hc ho setting.policy (c.answer r)
  rw [hr, c.holds_answer r] at hdeeds
  cases hheld : c.held r with
  | none =>
    refine .of_events ?_ hcreated
    rw [hdeeds, hheld]
    exact hwrites
  | some x =>
    have hx : x.address? = r := Creation.address?_of_held hheld
    refine .of_events ?_ fun b e he => hcreated b e (World.of_cell?_displaced he)
    have hdisplaced := World.writes_displaced (w := w.afterCreate setting.policy o)
      (v := c.target) (x := x) (hwrites.attentive hw) fun a ha => ?_
    · rw [hdeeds, hheld, List.reverse_append, List.map_append]
      simp only [Option.isSome_some, if_true, w.reverse_dropped]
      exact hwrites.trans hdisplaced
    · -- the owner that makes way has an event of before
      have hthere := h.isSome_of_owned? (v := c.target) ha
      have hne : r ≠ some a := fun hra => by
        rw [hfresh a hra] at hthere
        cases hthere
      refine ⟨?_, hx ▸ hne⟩
      show (((System.create setting.policy o).after w.system).cell? a).isSome
      rw [hcells a, if_neg hne]
      exact hthere

/-- **What every step puts on record.** -/
theorem World.Keeps.recorded (h : w.Keeps ds) (hw : w.system.Attentive) (hs : s ≠ .armLog)
    (hrun : s.run setting w = .ok (answer, w')) : ∃ ts, s.Recorded setting answer w w' ts := by
  cases s with
  | allocator name plan =>
    cases (Step.run_allocator name plan).symm.trans hrun
    exact ⟨[], .of_events (.of_eq rfl) fun _ _ hc => (System.timeoutsAt_of_some hc).symm⟩
  | armLog => exact absurd rfl hs
  | new v memory | create v memory | createForeign v => exact ⟨[], .of_creation h hw rfl hrun⟩
  | null v source =>
    cases (Step.run_null source).symm.trans hrun
    exact ⟨[], .of_assigned hw (fun a ha => ⟨h.isSome_of_owned? ha, nofun⟩) rfl⟩
  | copy v source via =>
    obtain ⟨k, hk, rfl, rfl⟩ := Step.of_copy hrun
    refine ⟨[], .of_assigned hw (fun a ha => ⟨h.isSome_of_owned? ha, ?_⟩) rfl⟩
    -- the event of an owner is not that of a handle
    have hv := World.owned?_eq_some_iff.mp ha
    have hne : (source, Variable.handle k) ≠ (v, .owner ⟨a⟩) := nofun
    exact ((h.rowsApart hv (Table.mem_of_get? hk) hne).2 a).1 rfl
  | compare v u =>
    obtain ⟨k, hk⟩ := Need.exists_handle (Step.met_of_run hrun List.mem_cons_self)
    obtain ⟨l, hl⟩ := Need.exists_handle
      (Step.met_of_run hrun (List.mem_cons_of_mem _ List.mem_cons_self))
    cases (Step.run_compare hk hl).symm.trans hrun
    exact ⟨[], .of_system rfl rfl⟩
  | isNull v =>
    obtain ⟨k, hk⟩ := Need.exists_handle (Step.met_of_run hrun List.mem_cons_self)
    cases (Step.run_isNull hk).symm.trans hrun
    exact ⟨[], .of_system rfl rfl⟩
  | text v spec =>
    obtain ⟨x, hx⟩ := Need.exists_variable (Step.met_of_run hrun List.mem_cons_self)
    cases (Step.run_text spec hx).symm.trans hrun
    exact ⟨[], .of_system rfl rfl⟩
  | isSignaled v | waitTimeout v timeout =>
    obtain ⟨o, ho⟩ := Need.exists_owner (Step.met_of_run hrun List.mem_cons_self)
    exact Step.Recorded.of_call hw rfl ho rfl hrun
  | signal v via | wait v via | tryWait v =>
    obtain ⟨x, hx⟩ := Need.exists_variable (Step.met_of_run hrun List.mem_cons_self)
    exact Step.Recorded.of_call hw rfl hx rfl hrun
  | delete v via =>
    obtain ⟨x, hx⟩ := Need.exists_variable (Step.met_of_run hrun List.mem_cons_self)
    cases (Step.run_delete via hx).symm.trans hrun
    have hdeeds : w.deleted v = (x.address?.map Deed.released).toList := by
      rw [World.deleted, hx]
      rfl
    cases ha : x.address? with
    | none =>
      rw [ha] at hdeeds
      exact ⟨[], .of_system hdeeds rfl⟩
    | some a =>
      rw [ha] at hdeeds
      refine ⟨[], .of_events ?_ fun b c hc => ?_⟩
      · show System.Writes ((w.deleted v).reverse.map _) _ _
        rw [hdeeds]
        exact hw.writes_release (h.isSome_cell? hx ha)
      · replace hc : ((System.release a).after w.system).cell? b = some c := hc
        rw [System.cell?_after_release] at hc
        split at hc
        · cases hc
        · exact (System.timeoutsAt_of_some hc).symm
  | intoHandle v =>
    obtain ⟨o, ho⟩ := Need.exists_owner (Step.met_of_run hrun List.mem_cons_self)
    cases (Step.run_intoHandle ho).symm.trans hrun
    exact ⟨[], .of_system rfl rfl⟩
  | intoOwner v =>
    obtain ⟨k, hk⟩ := Need.exists_handle (Step.met_of_run hrun List.mem_cons_self)
    have hstep := (Step.run_intoOwner hk).symm.trans hrun
    refine ⟨[], .of_system rfl ?_⟩
    cases ha : k.address? <;> rw [ha] at hstep <;> cases hstep <;> rfl

/-! ### What the records tell -/

/-- **The deeds of a step**: one event that was there is released at most, and one is asked for at
most. -/
structure Step.Does (ds : List Deed) (released : Option Address)
    (asked : Option (Origin × Option Address)) (deeds : List Deed) : Prop where
  /-- These are the deeds. -/
  eq : deeds = (released.map Deed.released).toList ++
    (asked.map fun m => Deed.created m.1 m.2).toList
  /-- What is released was there before. -/
  old : ∀ b, released = some b → b ∈ (Deed.left ds).map Prod.snd

namespace Step.Does

variable {released : Option Address} {asked : Option (Origin × Option Address)} {deeds : List Deed}
  {a : Address} {o : Origin} {r : Option Address}

theorem released_mem_iff (h : Does ds released asked deeds) :
    .released a ∈ deeds ↔ released = some a := by
  rw [h.eq]
  rcases released with _ | b <;> rcases asked with _ | m <;> simp [eq_comm]

theorem created_mem_iff (h : Does ds released asked deeds) :
    .created o r ∈ deeds ↔ asked = some (o, r) := by
  rw [h.eq]
  rcases released with _ | b <;> rcases asked with _ | ⟨o', r'⟩ <;> simp [eq_comm]

/-- What is there afterwards: what was not released, of the new and the old. -/
theorem left_mem_iff (h : Does ds released asked deeds) :
    a ∈ (Deed.left (deeds ++ ds)).map Prod.snd ↔
      released ≠ some a ∧ ((∃ o, asked = some (o, some a)) ∨ a ∈ (Deed.left ds).map Prod.snd) := by
  have hasked :
      a ∈ (Deed.left ((asked.map fun m => Deed.created m.1 m.2).toList ++ ds)).map Prod.snd ↔
        (∃ o, asked = some (o, some a)) ∨ a ∈ (Deed.left ds).map Prod.snd := by
    rcases asked with _ | ⟨o', _ | a'⟩ <;> simp [Deed.left, eq_comm (a := a)]
  rw [h.eq, List.append_assoc]
  cases released with
  | none => simpa using hasked
  | some b =>
    rw [← hasked]
    show a ∈ ((Deed.left _).filter fun e => e.2 ≠ b).map Prod.snd ↔ _
    simp only [List.mem_map, List.mem_filter, decide_eq_true_eq, ne_eq, Option.some.injEq]
    constructor
    · rintro ⟨e, ⟨he, hne⟩, rfl⟩
      exact ⟨fun hb => hne hb.symm, e, he, rfl⟩
    · rintro ⟨hne, e, he, rfl⟩
      exact ⟨e, ⟨he, fun hb => hne hb.symm⟩, rfl⟩

/-- What is created was not there before. -/
theorem fresh (h : Does ds released asked deeds) (hfair : Deed.Fair (deeds ++ ds))
    (ha : asked = some (o, some a)) : a ∉ (Deed.left ds).map Prod.snd := by
  rw [h.eq, ha] at hfair
  cases released with
  | none => exact hfair.1 a rfl
  | some b => exact hfair.2.1 a rfl

/-- The records of the deeds differ. -/
theorem nodup_record (h : Does ds released asked deeds) :
    (deeds.reverse.map Deed.record).Nodup := by
  rw [h.eq]
  rcases released with _ | b <;> rcases asked with _ | ⟨o', _ | a'⟩ <;> simp [Deed.record]

end Step.Does

/-- The answer of a creation says whether there was memory. -/
theorem Creation.eq_none_of_answer {c : Creation} {r : Option Address}
    (h : c.answer r = c.answer none) : r = none := by
  cases r with
  | none => rfl
  | some a =>
    unfold answer at h
    cases hc : c.owned <;> rw [hc] at h <;> cases h

/-- **What a step does**, by its deeds: it asks in vain if it is a creation that says so. -/
theorem World.Keeps.does (h : w.Keeps ds) (hw : w.system.Attentive)
    (hrun : s.run setting w = .ok (answer, w')) :
    ∃ released asked, Step.Does ds released asked (s.deeds setting.policy w answer) ∧
      ((∃ o, asked = some (o, none)) ↔ ∃ c, s.creation? = some c ∧ answer = c.answer none) := by
  have howned : ∀ {v b}, w.owned? v = some b → b ∈ (Deed.left ds).map Prod.snd := fun hb =>
    h.accounts.isSome_cell?_iff.mp (h.isSome_of_owned? hb)
  cases hc : s.creation? with
  | some c =>
    obtain ⟨o, ho⟩ := Step.exists_origin hc hrun
    obtain ⟨hanswer, -⟩ := Prod.mk.inj (Except.ok.inj
      ((Step.run_creation_of_unarmed hc ho hw.unarmed).symm.trans hrun))
    refine ⟨if answer.holds then w.owned? c.target else none,
      some (o, (w.system.askMemory setting.policy o).1), ⟨?_, fun b hb => ?_⟩, ?_⟩
    · rw [Step.deeds_of_creation hc ho, World.dropped_eq]
      cases answer.holds <;> rfl
    · split at hb
      · exact howned hb
      · cases hb
    · rw [← hanswer]
      constructor
      · rintro ⟨_, hr⟩
        exact ⟨c, rfl, congrArg c.answer (Prod.mk.inj (Option.some.inj hr)).2⟩
      · rintro ⟨_, hc', hr⟩
        cases hc'
        exact ⟨o, congrArg (fun r => some (o, r)) (Creation.eq_none_of_answer hr)⟩
  | none =>
    have hnone : ∀ released, Step.Does ds released none (s.deeds setting.policy w answer) →
        ∃ released asked, Step.Does ds released asked (s.deeds setting.policy w answer) ∧
          ((∃ o, asked = some (o, none)) ↔ ∃ c, none = some c ∧ answer = Creation.answer c none) :=
      fun released hdoes => ⟨released, none, hdoes, by simp⟩
    have hdropped : ∀ v, Step.Does ds (w.owned? v) none (w.dropped v) := fun v =>
      ⟨by rw [World.dropped_eq]; simp, fun b hb => howned hb⟩
    cases s with
    | new v memory | create v memory | createForeign v => cases hc
    | null v source => exact hnone _ (hdropped v)
    | copy v source via => exact hnone _ (hdropped v)
    | delete v via =>
      refine hnone (w.address? v)
        ⟨by simp [Step.deeds, World.deleted, World.address?], fun b hb => ?_⟩
      obtain ⟨x, hx, hxb⟩ := Option.bind_eq_some_iff.mp hb
      exact h.address_mem hx hxb
    | _ => exact hnone none ⟨rfl, fun _ hb => absurd hb (Option.some_ne_none _).symm⟩

/-- **What the records of a step tell**: which events came to be and which were released, whether
there was no memory, and whether a bounded wait ran out; each of it once, in the words and at the
level that are meant for it, and nothing else. -/
structure Report.Tells (setting : Setting) (s : Step) (w w' : World) (r : Report) : Prop where
  /-- The records are those of the deeds, in their order, and of timeouts. -/
  deeds : ∃ ts, r.log = Deed.log (s.deeds setting.policy w r.answer) ts
  /-- Each is written at its level and in its words. -/
  reads : ∀ m ∈ r.log, m.Reads m.level m.text
  /-- There is one warning for each request for memory that was refused. -/
  warned : r.log.countP (fun m => m.level = .warn) =
    (s.deeds setting.policy w r.answer).countP Deed.isRefusal
  /-- No record is made twice. -/
  nodup : r.log.Nodup
  /-- An event was created if it is there now and was not before. -/
  created : ∀ a, .created a ∈ r.log ↔ w.system.cell? a = none ∧ (w'.system.cell? a).isSome
  /-- There was no memory if the step is a creation that says so. -/
  refused : ∀ n, .allocationFailed n ∈ r.log ↔
    n = Cell.layout.size ∧ ∃ c, s.creation? = some c ∧ r.answer = c.answer none
  /-- An event was released if it was there before and is not now. -/
  released : ∀ a, .released a ∈ r.log ↔ (w.system.cell? a).isSome ∧ w'.system.cell? a = none
  /-- One bounded wait ran out at most. -/
  one : r.log.countP Record.isTimeout ≤ 1
  /-- It is one on the event of the step. -/
  there : ∀ d, .timedOut d ∈ r.log →
    ∃ b, s.subject?.bind w.address? = some b ∧ (w'.system.cell? b).isSome
  /-- As many timeouts were counted, by that event, and none by the others. -/
  counted : ∀ b c, w'.system.cell? b = some c → c.timeouts = w.system.timeoutsAt b +
    if s.subject?.bind w.address? = some b then r.log.countP Record.isTimeout else 0

/-- **The records of a step tell what it did.** -/
theorem World.Keeps.tells (h : w.Keeps ds) (hw : w.system.Attentive) (hs : s ≠ .armLog)
    (hrun : s.run setting w = .ok (answer, w')) :
    (Report.between s answer w w').Tells setting s w w' := by
  obtain ⟨ts, hrecorded⟩ := h.recorded hw hs hrun
  obtain ⟨released, asked, hdoes, hrefused⟩ := h.does hw hrun
  have haccounts := (h.step hrun).accounts
  have hlog : (Report.between s answer w w').log =
      Deed.log (s.deeds setting.policy w answer) ts := hrecorded.writes.log_eq
  -- which events there are, before and after
  have hbefore : ∀ a, (w.system.cell? a).isSome ↔ a ∈ (Deed.left ds).map Prod.snd := fun a =>
    h.accounts.isSome_cell?_iff
  have hafter : ∀ a, (w'.system.cell? a).isSome ↔ released ≠ some a ∧
      ((∃ o, asked = some (o, some a)) ∨ a ∈ (Deed.left ds).map Prod.snd) := fun a =>
    haccounts.isSome_cell?_iff.trans hdoes.left_mem_iff
  constructor
  case deeds => exact ⟨ts, hlog⟩
  case reads => exact fun m _ => m.reads
  case warned =>
    rw [hlog, Deed.countP_warn_log]
    rfl
  case nodup =>
    rw [hlog]
    exact Deed.nodup_log hdoes.nodup_record hrecorded.one
  case created =>
    intro a
    rw [hlog, Deed.created_mem_log, hafter, ← Option.not_isSome_iff_eq_none, hbefore]
    constructor
    · rintro ⟨o, ho⟩
      have hasked := hdoes.created_mem_iff.mp ho
      have hnew := hdoes.fresh haccounts.fair hasked
      exact ⟨hnew, fun hreleased => hnew (hdoes.old a hreleased), Or.inl ⟨o, hasked⟩⟩
    · rintro ⟨hnew, -, ⟨o, ho⟩ | hold⟩
      · exact ⟨o, hdoes.created_mem_iff.mpr ho⟩
      · exact absurd hold hnew
  case refused =>
    intro n
    rw [hlog, Deed.allocationFailed_mem_log]
    exact and_congr_right fun _ => (exists_congr fun o => hdoes.created_mem_iff).trans hrefused
  case released =>
    intro a
    rw [hlog, Deed.released_mem_log, hdoes.released_mem_iff, hbefore,
      ← Option.not_isSome_iff_eq_none, hafter]
    constructor
    · exact fun hreleased => ⟨hdoes.old a hreleased, fun hthere => hthere.1 hreleased⟩
    · rintro ⟨hold, hgone⟩
      exact not_not.mp fun hne => hgone ⟨hne, Or.inr hold⟩
  case one =>
    rw [hlog, Deed.countP_log]
    exact hrecorded.one
  case there =>
    intro d hd
    rw [hlog, Deed.timedOut_mem_log] at hd
    exact hrecorded.there (List.ne_nil_of_mem hd)
  case counted =>
    rw [hlog, Deed.countP_log]
    exact hrecorded.counted

/-- **A step that does none of this puts nothing on record.** -/
theorem Report.Tells.log_eq_nil {r : Report} (h : r.Tells setting s w w')
    (hevents : ∀ a, (w'.system.cell? a).isSome ↔ (w.system.cell? a).isSome)
    (hrefused : ∀ c, s.creation? = some c → r.answer ≠ c.answer none)
    (htimeouts : ∀ b c, w'.system.cell? b = some c → c.timeouts = w.system.timeoutsAt b) :
    r.log = [] := by
  refine List.eq_nil_iff_forall_not_mem.mpr fun m hm => ?_
  cases m with
  | created a =>
    obtain ⟨hbefore, hafter⟩ := (h.created a).mp hm
    rw [hevents, hbefore] at hafter
    cases hafter
  | allocationFailed n =>
    obtain ⟨-, c, hc, hanswer⟩ := (h.refused n).mp hm
    exact hrefused c hc hanswer
  | released a =>
    obtain ⟨hbefore, hafter⟩ := (h.released a).mp hm
    rw [← hevents, hafter] at hbefore
    cases hbefore
  | timedOut d =>
    obtain ⟨b, hb, hthere⟩ := h.there d hm
    obtain ⟨c, hc⟩ := Option.isSome_iff_exists.mp hthere
    have hcounted := h.counted b c hc
    rw [if_pos hb, htimeouts b c hc] at hcounted
    have hpos : 0 < r.log.countP Record.isTimeout := List.countP_pos_iff.mpr ⟨_, hm, rfl⟩
    omega

end Steps

/-! ### Whole scripts -/

section Scripts

variable {setting : Setting} {steps : List Step} {w w' : World} {ds : List Deed} {rs : List Report}

/-- **The log of a script**: the records are those that its steps made, and but for the timeouts
they are its deeds. -/
theorem World.Keeps.records (h : w.Keeps ds) (hw : w.system.Attentive) (hsteps : .armLog ∉ steps)
    (hrun : reports setting steps w = .ok (rs, w')) :
    System.Writes (rs.flatMap Report.log) w.system w'.system ∧
      (rs.flatMap Report.log).filter (fun r => !r.isTimeout) =
        (deeds setting steps w).reverse.map Deed.record := by
  induction steps generalizing w ds rs with
  | nil =>
    cases hrun
    exact ⟨.of_eq rfl, rfl⟩
  | cons s steps ih =>
    obtain ⟨hs, hsteps⟩ := List.ne_and_not_mem_of_not_mem_cons hsteps
    obtain ⟨answer, w₁, rs₁, hstep, hrest, rfl⟩ := exists_of_reports_cons hrun
    obtain ⟨ts, hrecorded⟩ := h.recorded hw hs.symm hstep
    have hlog : (Report.between s answer w w₁).log =
        Deed.log (s.deeds setting.policy w answer) ts := hrecorded.writes.log_eq
    obtain ⟨hwrites, hdeeds⟩ := ih (h.step hstep) (hrecorded.writes.attentive hw) hsteps hrest
    rw [List.flatMap_cons, hlog]
    refine ⟨hrecorded.writes.trans hwrites, ?_⟩
    rw [List.filter_append, Deed.filter_log, hdeeds]
    simp only [deeds, hstep, List.reverse_append, List.map_append]

end Scripts

/-- **Logging is a pure observer.** A script that is run with logging up to a lower level does
what it does with logging up to a higher one: the answers, the events and the accounts are the
same, and so is every event at the end, and the records are those that the lower level takes in.
Where every record is made, each step makes the records that tell what it did to the events, each
at its level and in its words, and no other; whatever is done with a null handle makes none. -/
theorem pure_observer (setting : Setting) {lo hi : Option Level} {steps : List Step}
    (hle : Level.height lo ≤ Level.height hi) (harm : .armLog ∉ steps) :
    run setting lo steps = (run setting hi steps).map (Outcome.upTo lo) ∧
    reports setting steps (World.start lo) =
      (reports setting steps (World.start hi)).map
        (fun p => (p.1.map (Report.upTo lo), p.2.upTo lo)) ∧
    ∀ pre s post, steps = pre ++ s :: post →
      ∀ rs w, reports setting pre (World.start (some .trace)) = .ok (rs, w) →
        ∀ r w', s.report setting w = .ok (r, w') →
          r.Tells setting s w w' ∧
          -- no other step makes a record
          ((∀ a, (w'.system.cell? a).isSome ↔ (w.system.cell? a).isSome) →
            (∀ c, s.creation? = some c → r.answer ≠ c.answer none) →
            (∀ b c, w'.system.cell? b = some c → c.timeouts = w.system.timeoutsAt b) →
            r.log = []) ∧
          -- and what is done with a null handle does not
          (∀ v answer, s.operands = [v] → s.onNull? = some answer →
            w.vars.get? v = some (.handle .null) →
            (∀ u, s.target? = some u → w.owned? u = none) →
            r.answer = answer ∧ r.log = [] ∧ w'.system = w.system) := by
  refine ⟨run_upTo hle harm, reports_upTo (w := World.start hi) ⟨rfl, hle⟩ harm, ?_⟩
  rintro pre s post rfl rs w hpre r w' hreport
  have hrun := of_report hreport
  obtain ⟨hr, -⟩ := Prod.mk.inj (Except.ok.inj (hreport.symm.trans (Step.report_of_run hrun)))
  have hkeeps := (World.keeps_start (some .trace)).run hpre
  have hstart : (World.start (some .trace)).system.Attentive := ⟨rfl, rfl⟩
  have hpre' : .armLog ∉ pre := fun hmem => harm (List.mem_append_left _ hmem)
  have hs : s ≠ .armLog := by
    rintro rfl
    exact harm (List.mem_append_right _ List.mem_cons_self)
  obtain ⟨hwrites, -⟩ := (World.keeps_start (some .trace)).records hstart hpre' hpre
  have htells : r.Tells setting s w w' := by
    rw [hr]
    exact hkeeps.tells (hwrites.attentive hstart) hs hrun
  refine ⟨htells, htells.log_eq_nil, fun v answer hv hanswer hx htarget => ?_⟩
  obtain ⟨w₁, hnull, hsystem, -, -⟩ := Step.run_onNull hanswer hv hx htarget
  obtain ⟨hanswer', rfl⟩ := Prod.mk.inj (Except.ok.inj (hrun.symm.trans hnull))
  refine ⟨hanswer', ?_, hsystem⟩
  rw [hr]
  show List.drop _ _ = []
  rw [hsystem, List.drop_length]

/-- A request that is refused and the null handle that comes of it, bounded waits of which one runs
out, and the two ways in which an event is released. -/
def loggedScript (patience : Duration) : List Step :=
  [.allocator "pool" (.only [1]), .new "a" (.named "pool"), .create "n" (.named "pool"),
    .signal "n" .foreign, .waitTimeout "a" patience, .waitTimeout "a" .max, .signal "a" .handle,
    .signal "a" .handle, .waitTimeout "a" patience, .createForeign "b", .null "a" .raw,
    .delete "b" .foreign, .delete "n" .foreign]

theorem pure_observer_logged :
    Level.height (some .warn) ≤ Level.height (some .trace) ∧
    .armLog ∉ loggedScript (Setting.patience {}) ∧
    run {} (some .warn) (loggedScript (Setting.patience {})) =
      (run {} (some .trace) (loggedScript (Setting.patience {}))).map
        (Outcome.upTo (some .warn)) ∧
    (run {} (some .trace) (loggedScript (Setting.patience {}))).toOption.map
        (fun o => o.steps.map Report.log) =
      some [[], [.created ⟨4096, by decide⟩], [.allocationFailed 72], [],
        [.timedOut (Setting.patience {})], [], [], [], [], [.created ⟨4168, by decide⟩],
        [.released ⟨4096, by decide⟩], [.released ⟨4168, by decide⟩], []] ∧
    (run {} (some .warn) (loggedScript (Setting.patience {}))).toOption.map
        (fun o => (o.steps.flatMap Report.log).map Record.text) =
      some ["WARN alice_event::event event allocation failed (<n> bytes)"] := by
  have hle : Level.height (some .warn) ≤ Level.height (some .trace) := by decide
  have harm : .armLog ∉ loggedScript (Setting.patience {}) := by simp [loggedScript]
  exact ⟨hle, harm, (pure_observer {} hle harm).1, by decide +kernel, by decide +kernel⟩

end Script

end AutoReset
