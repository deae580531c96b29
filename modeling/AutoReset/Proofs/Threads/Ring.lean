import AutoReset.Proofs.Event.Tenancy
import AutoReset.Proofs.Threads.Account
import AutoReset.Threads.Race
/-!
# A signal that goes round

In a ring each thread waits on its own event and signals the next one, and the first thread
signals before it waits. There is one **token**: at any time exactly one thread is about to
signal, or exactly one signal is pending (`AutoReset.Threads.TokenRing.Passing.token`). A signal
takes the token from its thread to the next event, and a wait takes it from its event to its
thread. So a signal never meets another one, and is never absorbed.

How far each thread has got tells all counters. It is convenient to count the first thread as
one request ahead, as if it had waited already (`AutoReset.Threads.TokenRing.lead`): then every
thread has the token after an odd number of requests, and a thread that is `k` requests far
has made `k / 2` signals.

Where no thread can go on, the token is with the first thread, which is through; then so is
the second, because the last signal for it is not pending any more, and so on round the ring
(`AutoReset.Threads.TokenRing.Passing.through_of_stuck`).

The ring stands on a table of different addresses, and every table that a race is given is
one (`AutoReset.Threads.nodup_createEvents`).
-/

namespace AutoReset.Threads

/-! ### The events of a race -/

/-- Whichever way an event is to be held, it is created in the memory of the system. -/
theorem Route.create_eq (policy : Placement) (r : Route) :
    r.create policy = System.create policy .system := by
  funext s
  cases r with
  | owner =>
    rw [create, Owner.create_eq_map, Attempt.bind_apply, Attempt.map_apply]
    rcases System.create policy .system s with ⟨_ | a, s⟩ | ⟨f, s⟩ <;> rfl
  | handle =>
    rw [create, Handle.create_eq_map, Attempt.bind_apply, Attempt.map_apply]
    rcases System.create policy .system s with ⟨result, s⟩ | ⟨f, s⟩
    · exact congrArg (EStateM.Result.ok · s) (Handle.address?_ofResult result)
    · rfl
  | foreign =>
    rw [create, Foreign.create_eq_map, Handle.create_eq_map, Attempt.bind_apply,
      Attempt.map_apply, Attempt.map_apply]
    rcases System.create policy .system s with ⟨result, s⟩ | ⟨f, s⟩
    · exact congrArg (EStateM.Result.ok · s) (Handle.address?_ofResult result)
    · rfl

/-- **The events of a race stand apart**: they are created one after the other and none is
released, so no address comes twice. -/
theorem nodup_createEvents {policy : Placement} {r : Route} {k : Nat} {s s' : System}
    {ds : List Deed} {addresses : List Address} (h : s.Accounts ds)
    (hrun : createEvents policy r k s = .ok addresses s') :
    addresses.Nodup ∧ ∀ a ∈ addresses, a ∉ (Deed.left ds).map Prod.snd := by
  induction k generalizing s ds addresses with
  | zero =>
    cases hrun
    simp
  | succ k ih =>
    obtain ⟨result, s₁, hcreate, hrest⟩ := Attempt.exists_of_bind hrun
    rw [Route.create_eq] at hcreate
    have hs₁ : (System.create policy .system).after s = s₁ := by rw [Attempt.after, hcreate]
    have haccounts := h.create policy (o := .system) (fun k hk => by cases hk)
    rw [hs₁, ← System.Accounts.eq_of_create policy hcreate] at haccounts
    rcases result with _ | a
    · cases hrest
      simp
    · obtain ⟨others, s₂, hothers, hok⟩ := Attempt.exists_of_bind hrest
      cases hok
      obtain ⟨hnodup, hnew⟩ := ih haccounts hothers
      have hother : ∀ b ∈ others, b ≠ a ∧ b ∉ (Deed.left ds).map Prod.snd := by
        intro b hb
        simpa [Deed.left] using hnew b hb
      refine ⟨List.nodup_cons.mpr ⟨fun ha => (hother a ha).1 rfl, hnodup⟩, ?_⟩
      intro b hb
      rcases List.mem_cons.mp hb with rfl | hb
      · exact haccounts.fair.1 b rfl
      · exact (hother b hb).2

/-! ### The tapes of a ring -/

section Tapes

variable {m g n k : Nat} {table : Vector Address m}

theorem get_injective (h : table.toList.Nodup) : Function.Injective table.get := by
  intro e f hef
  have hlen : ∀ e : Fin m, e.val < table.toList.length := fun e => by simp
  have hlist : ∀ e : Fin m, table.get e = table.toList.get ⟨e.val, hlen e⟩ := fun e => by
    rw [List.get_eq_getElem, Vector.getElem_toList]
    rfl
  rw [hlist, hlist] at hef
  have hindex := List.nodup_iff_injective_get.mp h hef
  exact Fin.ext (Fin.mk.inj hindex)

/-- Where no address stands twice in a table, a call on an address is one on its event. -/
theorem request?_call (h : table.toList.Nodup) (e : Fin m) (c : Call) :
    request? (g := g) table (.call (table.get e) c) = some (.call e c) := by
  have hsome : ((List.finRange m).find? fun f => table.get f = table.get e).isSome = true := by
    rw [List.find?_isSome]
    exact ⟨e, List.mem_finRange e, decide_eq_true rfl⟩
  obtain ⟨f, hf⟩ := Option.isSome_iff_exists.mp hsome
  have hget : table.get f = table.get e := by simpa using List.find?_some hf
  obtain rfl := get_injective h hget
  rw [request?, hf]
  rfl

theorem Route.signal_eq (r : Route) (a : Address) : r.signal a = .call a .signal := by
  cases r with
  | owner => rfl
  | handle => simp [signal, Handle.signal, Handle.entry]
  | foreign =>
    have hraw : Handle.ofRaw a.value = Handle.ofAddress a := rfl
    simp [signal, Foreign.signal, hraw, Handle.signal, Handle.entry]

theorem Route.wait_eq (r : Route) (a : Address) : r.wait a = .call a .wait := by
  cases r with
  | owner => rfl
  | handle => simp [wait, Handle.wait, Handle.entry]
  | foreign =>
    have hraw : Handle.ofRaw a.value = Handle.ofAddress a := rfl
    simp [wait, Foreign.wait, hraw, Handle.wait, Handle.entry]

theorem Route.tryWait_eq (r : Route) (a : Address) : r.tryWait a = .call a .tryWait := by
  cases r with
  | owner => rfl
  | handle | foreign => simp [tryWait, Handle.tryWait, Handle.entry]

theorem signals_eq (h : table.toList.Nodup) (r : Route) (e : Fin m) :
    signals (g := g) r table e = [.call e .signal] := by
  rw [signals, Route.signal_eq, request?_call h]
  rfl

theorem waits_eq (h : table.toList.Nodup) (r : Route) (e : Fin m) :
    waits (g := g) r table e = [.call e .wait] := by
  rw [waits, Route.wait_eq, request?_call h]
  rfl

/-- Two requests over and over. -/
theorem getElem?_loop (a b : Request m g) :
    (loop n [a, b])[k]? = if k < 2 * n then some (if k % 2 = 0 then a else b) else none := by
  induction n generalizing k with
  | zero => simp [loop]
  | succ n ih =>
    have hloop : loop (n + 1) [a, b] = a :: b :: loop n [a, b] := by
      simp [loop, List.replicate_succ]
    rw [hloop]
    match k with
    | 0 => simp
    | 1 =>
      simp only [List.getElem?_cons_succ, List.getElem?_cons_zero]
      rw [if_pos (by omega), if_neg (by omega)]
    | k + 2 =>
      simp only [List.getElem?_cons_succ, ih]
      by_cases hk : k < 2 * n
      · rw [if_pos hk, if_pos (by omega : k + 2 < 2 * (n + 1)), Nat.add_mod_right]
      · rw [if_neg hk, if_neg (by omega)]

end Tapes

namespace TokenRing

variable {t n : Nat}

/-- How many requests a thread is ahead at the beginning: the first one has the token, as if
it had waited for it. -/
def lead (i : Fin t) : Nat := if i.val = 0 then 1 else 0

/-- The request of a thread at a position: with the token it signals, without it waits. -/
def request (i : Fin t) (k : Nat) : Request t 0 :=
  if (k + lead i) % 2 = 1 then .call (after i) .signal else .call i .wait

/-- The tapes of a ring, request by request. -/
theorem getElem?_ringTapes {r : Route} {table : Vector Address t} (h : table.toList.Nodup)
    (i : Fin (ringTapes r table n).length) (hi : (ringTapes r table n).length = t) (k : Nat) :
    ((ringTapes r table n).get i)[k]? = if k < 2 * n then some (request (i.cast hi) k) else none := by
  have htape : (ringTapes r table n)[i.val] =
      if i.val = 0 then loop n [.call (after (i.cast hi)) .signal, .call (i.cast hi) .wait]
      else loop n [.call (i.cast hi) .wait, .call (after (i.cast hi)) .signal] := by
    simp only [ringTapes, signals_eq h, waits_eq h, List.getElem_map, List.getElem_finRange,
      List.cons_append, List.nil_append]
    rfl
  rw [List.get_eq_getElem, htape]
  by_cases hzero : i.val = 0
  · simp only [if_pos hzero, getElem?_loop, request, lead, Fin.val_cast]
    congr 2
    split <;> split <;> first | rfl | omega
  · simp only [if_neg hzero, getElem?_loop, request, lead, Fin.val_cast]
    congr 2
    split <;> split <;> first | rfl | omega

theorem length_ringTapes (r : Route) (table : Vector Address t) :
    (ringTapes r table n).length = t := by
  simp [ringTapes]

/-! ### Round the ring -/

theorem val_after (i : Fin t) : (after i).val = if i.val + 1 = t then 0 else i.val + 1 := by
  have hi := i.isLt
  simp only [after]
  split
  · next h => rw [h, Nat.mod_self]
  · exact Nat.mod_eq_of_lt (by omega)

theorem after_injective : Function.Injective (after : Fin t → Fin t) := by
  intro i j h
  have hi := val_after i
  have hj := val_after j
  rw [h] at hi
  ext
  split at hi <;> split at hj <;> omega

theorem exists_after_eq (e : Fin t) : ∃ i, after i = e :=
  Finite.injective_iff_surjective.mp after_injective e

/-! ### The token -/

/-- Where the token can be. -/
inductive Place (t : Nat) where
  /-- A thread has it. -/
  | thread (i : Fin t)
  /-- It is a signal pending on an event. -/
  | event (e : Fin t)

/-- Is the token there, if the threads are this far and the latches are these? -/
def Place.Holds (pos : Fin t → Nat) (latch : Fin t → Latch) : Place t → Prop
  | thread i => (pos i + lead i) % 2 = 1
  | event e => (latch e).signaled = true

/-- **The token goes round**: this is what positions and latches have to do with each
other. -/
structure Passing (n : Nat) (pos : Fin t → Nat) (latch : Fin t → Latch) : Prop where
  /-- A thread has made this many signals. -/
  signals (i : Fin t) : (latch (after i)).stats.posts.toNat = (pos i + lead i) / 2
  /-- A thread has waited this often. -/
  waits (i : Fin t) : (latch i).stats.consumed.toNat = (pos i + 1 - lead i) / 2
  /-- No signal was absorbed. -/
  coalesced (e : Fin t) : (latch e).stats.coalesced = 0
  /-- No wait ran out. -/
  timeouts (e : Fin t) : (latch e).stats.timeouts = 0
  /-- No thread is further than the end of its tape. -/
  le (i : Fin t) : pos i ≤ 2 * n
  /-- The token is in one place. -/
  token : ∃ x, ∀ y, Place.Holds pos latch y ↔ y = x

variable {pos : Fin t → Nat} {latch : Fin t → Latch}

theorem passing_start (ht : 0 < t) : Passing n (fun _ : Fin t => 0) (fun _ => Latch.fresh) where
  signals i := by
    simp only [lead]
    split <;> rfl
  waits i := by
    simp only [lead]
    split <;> rfl
  coalesced e := rfl
  timeouts e := rfl
  le i := Nat.zero_le _
  token := by
    refine ⟨.thread ⟨0, ht⟩, fun y => ?_⟩
    cases y with
    | thread i =>
      simp only [Place.Holds, lead, Place.thread.injEq, Fin.ext_iff]
      split <;> simp_all
    | event e => simp [Place.Holds, Latch.fresh]

namespace Passing

/-- At most one signal is pending. -/
theorem sole (h : Passing n pos latch) {e f : Fin t} (he : (latch e).signaled = true)
    (hf : (latch f).signaled = true) : e = f := by
  obtain ⟨x, hx⟩ := h.token
  have hex := (hx (.event e)).mp he
  have hfx := (hx (.event f)).mp hf
  exact Place.event.inj (hex.trans hfx.symm)

/-- Where a thread has the token nothing is pending. -/
theorem unset (h : Passing n pos latch) {i : Fin t} (hi : (pos i + lead i) % 2 = 1) (e : Fin t) :
    (latch e).signaled = false := by
  obtain ⟨x, hx⟩ := h.token
  have hix := (hx (.thread i)).mp hi
  rw [← Bool.not_eq_true]
  intro he
  cases hix.trans ((hx (.event e)).mp he).symm

/-- **A signal takes the token to the next event**; it meets no other signal there, and there
is room to count it. -/
theorem signal (h : Passing n pos latch) (hn : n < 2 ^ 64) {i : Fin t} {r : Reply} {l : Latch}
    {since now : Instant} (hlt : pos i < 2 * n) (hi : (pos i + lead i) % 2 = 1)
    (hd : Call.Decides since now (latch (after i)) .signal r l) :
    Passing n (Function.update pos i (pos i + 1)) (Function.update latch (after i) l) := by
  have hlead : lead i ≤ 1 := by
    rw [lead]
    split <;> omega
  have hp : (latch (after i)).stats.posts ≠ Counter.last := by
    have hposts := h.signals i
    rw [Counter.ne_last_iff]
    omega
  obtain ⟨-, rfl⟩ := Call.posted_of_decides hp hd
  have hunset := h.unset hi (after i)
  obtain ⟨x, hx⟩ := h.token
  have hix := (hx (.thread i)).mp hi
  constructor
  case signals =>
    intro j
    by_cases hj : j = i
    · subst hj
      rw [Function.update_self, Function.update_self]
      have hposts := h.signals j
      have hsucc := Counter.toNat_succ hp
      simp only [Latch.posted]
      omega
    · rw [Function.update_of_ne hj, Function.update_of_ne (after_injective.ne hj)]
      exact h.signals j
  case waits =>
    intro j
    have hconsumed : (Function.update latch (after i) (latch (after i)).posted j).stats.consumed =
        (latch j).stats.consumed := by
      by_cases hj : j = after i
      · rw [hj, Function.update_self]
        rfl
      · rw [Function.update_of_ne hj]
    rw [hconsumed, h.waits j]
    by_cases hj : j = i
    · subst hj
      rw [Function.update_self]
      omega
    · rw [Function.update_of_ne hj]
  case coalesced =>
    refine (Function.forall_update_iff latch fun _ l => l.stats.coalesced = 0).mpr
      ⟨?_, fun e _ => h.coalesced e⟩
    simp only [Latch.posted, hunset, Bool.false_eq_true, if_false]
    exact h.coalesced (after i)
  case timeouts =>
    exact (Function.forall_update_iff latch fun _ l => l.stats.timeouts = 0).mpr
      ⟨h.timeouts (after i), fun e _ => h.timeouts e⟩
  case le =>
    exact (Function.forall_update_iff pos fun _ p => p ≤ 2 * n).mpr ⟨hlt, fun j _ => h.le j⟩
  case token =>
    refine ⟨.event (after i), fun y => ?_⟩
    cases y with
    | thread j =>
      simp only [Place.Holds, reduceCtorEq, iff_false]
      by_cases hj : j = i
      · rw [hj, Function.update_self]
        omega
      · rw [Function.update_of_ne hj]
        intro hh
        exact hj (Place.thread.inj (((hx (.thread j)).mp hh).trans hix.symm))
    | event e =>
      simp only [Place.Holds, Place.event.injEq]
      by_cases he : e = after i
      · simp [he, Latch.posted]
      · rw [Function.update_of_ne he, h.unset hi e]
        simp [he]

/-- **A wait takes the token to its thread.** -/
theorem wait (h : Passing n pos latch) {i : Fin t} {r : Reply} {l : Latch}
    {since now : Instant} (hb : (latch i).Balanced) (hlt : pos i < 2 * n)
    (hi : (pos i + lead i) % 2 ≠ 1) (hd : Call.Decides since now (latch i) .wait r l) :
    Passing n (Function.update pos i (pos i + 1)) (Function.update latch i l) := by
  have hlead : lead i ≤ 1 := by
    rw [lead]
    split <;> omega
  obtain ⟨hs, rfl⟩ : (latch i).signaled = true ∧ l = (latch i).taken := by
    cases hd with
    | answered ha =>
      cases ha with
      | take _ hs => exact ⟨hs, rfl⟩
      | look hc => cases hc
  obtain ⟨x, hx⟩ := h.token
  have hix := (hx (.event i)).mp hs
  constructor
  case signals =>
    intro j
    have hposts : (Function.update latch i (latch i).taken (after j)).stats.posts =
        (latch (after j)).stats.posts := by
      by_cases hj : after j = i
      · rw [hj, Function.update_self]
        rfl
      · rw [Function.update_of_ne hj]
    rw [hposts, h.signals j]
    by_cases hj : j = i
    · subst hj
      rw [Function.update_self]
      omega
    · rw [Function.update_of_ne hj]
  case waits =>
    intro j
    by_cases hj : j = i
    · subst hj
      rw [Function.update_self, Function.update_self]
      have hconsumed := h.waits j
      have hsucc := Counter.toNat_succ (hb.consumed_ne_last hs)
      simp only [Latch.taken]
      omega
    · rw [Function.update_of_ne hj, Function.update_of_ne hj]
      exact h.waits j
  case coalesced =>
    exact (Function.forall_update_iff latch fun _ l => l.stats.coalesced = 0).mpr
      ⟨h.coalesced i, fun e _ => h.coalesced e⟩
  case timeouts =>
    exact (Function.forall_update_iff latch fun _ l => l.stats.timeouts = 0).mpr
      ⟨h.timeouts i, fun e _ => h.timeouts e⟩
  case le =>
    exact (Function.forall_update_iff pos fun _ p => p ≤ 2 * n).mpr ⟨hlt, fun j _ => h.le j⟩
  case token =>
    refine ⟨.thread i, fun y => ?_⟩
    cases y with
    | thread j =>
      simp only [Place.Holds, Place.thread.injEq]
      by_cases hj : j = i
      · rw [hj, Function.update_self]
        simp only [iff_true]
        omega
      · rw [Function.update_of_ne hj]
        simp only [hj, iff_false]
        intro hh
        cases ((hx (.thread j)).mp hh).trans hix.symm
    | event e =>
      simp only [Place.Holds, reduceCtorEq, iff_false]
      by_cases he : e = i
      · rw [he, Function.update_self, Latch.signaled_taken]
        exact Bool.false_ne_true
      · rw [Function.update_of_ne he]
        intro hh
        exact he (Place.event.inj (((hx (.event e)).mp hh).trans hix.symm))

/-- **At the end every event is unset** and has seen as many signals as were to go round. -/
theorem through (h : Passing n pos latch) (hb : ∀ e, (latch e).Balanced) (ht : 0 < t)
    (hpos : ∀ i, pos i = 2 * n) (e : Fin t) :
    (latch e).signaled = false ∧ (latch e).stats.posts.toNat = n ∧
      (latch e).stats.coalesced = 0 ∧ (latch e).stats.consumed.toNat = n ∧
      (latch e).stats.timeouts = 0 := by
  have hunset : (latch e).signaled = false := by
    refine h.unset (i := ⟨0, ht⟩) ?_ e
    rw [hpos, lead, if_pos rfl]
    omega
  have hconsumed : (latch e).stats.consumed.toNat = n := by
    rw [h.waits, hpos, lead]
    split <;> omega
  refine ⟨hunset, ?_, h.coalesced e, hconsumed, h.timeouts e⟩
  have hbalanced := hb e
  rw [Latch.Balanced, h.coalesced, hunset, hconsumed] at hbalanced
  simpa using hbalanced

/-- **Where every thread is through, or waits for a signal that is not there, every thread is
through.** -/
theorem through_of_stuck (h : Passing n pos latch) (hb : ∀ e, (latch e).Balanced)
    (hstuck : ∀ i, pos i = 2 * n ∨ ((pos i + lead i) % 2 ≠ 1 ∧ (latch i).signaled = false))
    (i : Fin t) : pos i = 2 * n := by
  obtain ⟨x, hx⟩ := h.token
  cases x with
  | event e =>
    -- the thread of that event is through, so it has had all the signals there were for it
    exfalso
    have hs : (latch e).signaled = true := (hx (.event e)).mpr rfl
    have hpos : pos e = 2 * n := by
      rcases hstuck e with hpos | ⟨-, hunset⟩
      · exact hpos
      · cases hs.symm.trans hunset
    obtain ⟨j, rfl⟩ := exists_after_eq e
    have hbalanced := hb (after j)
    have hposts := h.signals j
    have hconsumed := h.waits (after j)
    have hle := h.le j
    rw [Latch.Balanced, h.coalesced, hs] at hbalanced
    simp only [UInt64.toNat_zero, Bool.toNat_true] at hbalanced
    simp only [lead] at hposts hconsumed
    split at hposts <;> split at hconsumed <;> omega
  | thread j =>
    have hj : (pos j + lead j) % 2 = 1 := (hx (.thread j)).mpr rfl
    have hthrough : pos j = 2 * n := by
      rcases hstuck j with hpos | ⟨hne, -⟩
      · exact hpos
      · exact absurd hj hne
    have hzero : j.val = 0 := by
      by_contra hne
      rw [lead, if_neg hne] at hj
      omega
    -- from the first thread on round the ring
    obtain ⟨k, hk⟩ := i
    induction k with
    | zero =>
      have hfirst : (⟨0, hk⟩ : Fin t) = j := Fin.ext hzero.symm
      rw [hfirst]
      exact hthrough
    | succ k ih =>
      have hprev := ih (by omega)
      have hnext : after (⟨k, by omega⟩ : Fin t) = ⟨k + 1, hk⟩ := by
        ext
        rw [val_after]
        exact if_neg (by simp only; omega)
      have hposts := h.signals ⟨k, by omega⟩
      rw [hnext, hprev] at hposts
      have hbalanced := hb ⟨k + 1, hk⟩
      have hconsumed := h.waits ⟨k + 1, hk⟩
      have hle := h.le ⟨k + 1, hk⟩
      have hnot : ¬ (pos ⟨k + 1, hk⟩ + lead (⟨k + 1, hk⟩ : Fin t)) % 2 = 1 := by
        intro hh
        have hplace := Place.thread.inj ((hx (.thread ⟨k + 1, hk⟩)).mp hh)
        rw [← hplace] at hzero
        cases hzero
      have hlead : lead (⟨k + 1, hk⟩ : Fin t) = 0 := if_neg (by simp)
      rw [Latch.Balanced, h.coalesced, h.unset hj] at hbalanced
      simp only [UInt64.toNat_zero, Bool.toNat_false] at hbalanced
      rw [hlead] at hconsumed hnot
      simp only [lead] at hposts
      split at hposts <;> omega

end Passing

end TokenRing

/-! ### Machines that run a ring -/

namespace Machine

open TokenRing

/-- The thread is through: it is in no call, and has nothing left to ask for. -/
def Through {σ : Type} {t m g : Nat} (p : Program σ m g) (μ : Machine σ t m g) (θ : Fin t) :
    Prop :=
  μ.status θ = .ready ∧ p.next (μ.thread θ).state = none

instance {σ : Type} {t m g : Nat} (p : Program σ m g) (μ : Machine σ t m g) (θ : Fin t) :
    Decidable (μ.Through p θ) :=
  inferInstanceAs (Decidable (_ ∧ _))

section Rings

variable {t n : Nat} {tape : Fin t → List (Request t 0)} {μ ν : Machine (Tape t 0) t t 0}
  {as : List (Action t)}

/-- **A step passes the token on, or leaves it where it is.** -/
theorem passing_of_step {a : Action t}
    (htape : ∀ i j, (tape i)[j]? = if j < 2 * n then some (request i j) else none)
    (hn : n < 2 ^ 64) (hb : ∀ e, (μ.monitor e).latch.Balanced) (hf : μ.Follows tape)
    (hpass : Passing n μ.position μ.latches) (h : μ.step Tape.program a = some ν) :
    ν.Follows tape ∧ Passing n ν.position ν.latches := by
  obtain ⟨hf', ⟨hpos, hlatches⟩ | ⟨i, e, c, since, r, l, hq, hd, hpos, hlatches⟩ |
    ⟨i, k, -⟩⟩ := hf.turn (step_turn hb h)
  · rw [hpos, hlatches]
    exact ⟨hf', hpass⟩
  · refine ⟨hf', ?_⟩
    rw [hpos, hlatches]
    rw [htape] at hq
    split at hq
    · next hlt =>
      rw [request] at hq
      split at hq
      · next hi =>
        cases hq
        exact hpass.signal hn hlt hi hd
      · next hi =>
        cases hq
        exact hpass.wait (hb i) hlt hi hd
    · cases hq
  · exact k.elim0

/-- **In a run of a ring the token goes round.** -/
theorem passing_of_steps
    (htape : ∀ i j, (tape i)[j]? = if j < 2 * n then some (request i j) else none)
    (ht : 0 < t) (hn : n < 2 ^ 64) (hμ : μ.Initial) (hf : μ.Follows tape)
    (hpos : μ.position = fun _ => 0) (h : μ.steps Tape.program as = some ν) :
    ν.Follows tape ∧ Passing n ν.position ν.latches := by
  have hstart : Passing n μ.position μ.latches := by
    have hlatches : μ.latches = fun _ => .fresh := funext hμ.latch_room
    rw [hpos, hlatches]
    exact passing_start ht
  have hall := steps_induction
    (P := fun κ => (κ.Follows tape ∧ Passing n κ.position κ.latches) ∧
      ∀ e, (κ.monitor e).latch.Balanced)
    (fun κ a κ' hκ ha => ⟨passing_of_step htape hn hκ.2 hκ.1.1 hκ.1.2 ha,
      fun e => (step_room (hκ.2 e) ha).balanced (hκ.2 e)⟩)
    ⟨⟨hf, hstart⟩, hμ.balanced⟩ h
  exact hall.1

/-- A thread that is through has decided all requests of its tape. -/
theorem position_of_through
    (htape : ∀ i j, (tape i)[j]? = if j < 2 * n then some (request i j) else none)
    (hf : ν.Follows tape) (hpass : Passing n ν.position ν.latches) {i : Fin t}
    (hi : ν.Through Tape.program i) : ν.position i = 2 * n := by
  have hnext := (hf.next i).symm.trans hi.2
  rw [htape] at hnext
  have hpos : ν.position i = (ν.account i).1.made.length := by
    rw [position, account_eq hi.1]
    rfl
  have hle := hpass.le i
  split at hnext
  · cases hnext
  · omega

/-- **A ring does not get stuck**: where no thread can make a step, all of them are
through. -/
theorem through_of_stuck
    (htape : ∀ i j, (tape i)[j]? = if j < 2 * n then some (request i j) else none)
    (hμ : μ.Initial) (h : μ.steps Tape.program as = some ν) (hf : ν.Follows tape)
    (hpass : Passing n ν.position ν.latches)
    (hstuck : ∀ i, ν.advance Tape.program i = none) (i : Fin t) : ν.Through Tape.program i := by
  have hcases := asleep_of_stuck hμ h hstuck
  -- a sleeper waits for a signal on its own event, and it is not there
  have hasleep : ∀ {j : Fin t} {v : Visit t} {b : Option Duration}, ν.status j = .asleep v b →
      v.event = j ∧ ν.position j < 2 * n ∧ (ν.position j + lead j) % 2 ≠ 1 := by
    intro j v b hs
    have hq := (hf j).2 v none (by rw [account_eq hs]; rfl)
    have hpos : ν.position j = (ν.account j).1.made.length := by
      rw [position, account_eq hs]
      rfl
    rw [htape, ← hpos] at hq
    have hwaits : v.call.waits = true := by
      have hseat := seat_room (e := v.event) hs
      rw [Status.seat, Visit.seat, if_pos rfl] at hseat
      exact ((hμ.orderly h v.event).fits hseat).waits rfl
    split at hq
    · next hlt =>
      rw [request] at hq
      split at hq
      · obtain ⟨-, hcall⟩ := Request.call.inj (Option.some.inj hq)
        rw [← hcall] at hwaits
        cases hwaits
      · next hj =>
        obtain ⟨hevent, -⟩ := Request.call.inj (Option.some.inj hq)
        exact ⟨hevent.symm, hlt, hj⟩
    · cases hq
  have hall := hpass.through_of_stuck (hμ.balanced_of_steps h) fun j => by
    rcases hcases j with hthrough | ⟨v, b, hs, hunset⟩
    · exact Or.inl (position_of_through htape hf hpass hthrough)
    · obtain ⟨hevent, -, hwait⟩ := hasleep hs
      exact Or.inr ⟨hwait, hevent ▸ hunset⟩
  rcases hcases i with hthrough | ⟨v, b, hs, -⟩
  · exact hthrough
  · have hlt := (hasleep hs).2.1
    have heq := hall i
    omega

end Rings

/-- **A signal goes round a ring without getting lost or absorbed.** Threads wait on their own
events and signal the next ones, `n` times each, the first one signalling first; the events
are new, and are held as owners, by handles or by bare numbers. At any time, whatever the
schedule,

* at most one event is set, and none has absorbed a signal;
* as long as some thread is not through, some thread can make a step of its own accord, not
  only by waking for no reason;
* when all threads are through every event is unset and has received and given away `n`
  signals, and no wait ran out. -/
theorem ring_handshake {t n : Nat} (r : Route) (table : Vector Address t) (now : Instant)
    (hdistinct : table.toList.Nodup) (ht : 0 < t) (hn : n < 2 ^ 64)
    {as : List (Action (ringTapes r table n).length)}
    {ν : Machine (Tape t 0) (ringTapes r table n).length t 0}
    (h : (ofTapes 0 (freshLatches t) (ringTapes r table n) now).steps Tape.program as = some ν) :
    (∀ e f, (ν.monitor e).latch.signaled = true → (ν.monitor f).latch.signaled = true → e = f) ∧
    (∀ e, (ν.monitor e).latch.stats.coalesced = 0) ∧
    ((∃ θ, ¬ ν.Through Tape.program θ) → ∃ θ κ, ν.advance Tape.program θ = some κ) ∧
    ((∀ θ, ν.Through Tape.program θ) → ∀ e,
      (ν.monitor e).latch.signaled = false ∧ (ν.monitor e).latch.stats.posts.toNat = n ∧
        (ν.monitor e).latch.stats.coalesced = 0 ∧
        (ν.monitor e).latch.stats.consumed.toNat = n ∧
        (ν.monitor e).latch.stats.timeouts = 0) := by
  have hk := length_ringTapes (n := n) r table
  obtain ⟨tape, htape, hf⟩ : ∃ tape : Fin (ringTapes r table n).length → List (Request t 0),
      (∀ i j, (tape i)[j]? = if j < 2 * n then some (request (i.cast hk) j) else none) ∧
        (ofTapes 0 (freshLatches t) (ringTapes r table n) now).Follows tape :=
    ⟨_, fun i j => getElem?_ringTapes hdistinct i hk j,
      follows_ofTapes (freshLatches t) (ringTapes r table n) now⟩
  have hμ : (ofTapes 0 (freshLatches t) (ringTapes r table n) now).Initial := initial_ofTapes ..
  have hpos := position_ofTapes (freshLatches t) (ringTapes r table n) now
  -- from here on the number of threads is that of the events
  generalize ofTapes 0 (freshLatches t) (ringTapes r table n) now = μ at h hf hμ hpos
  generalize (ringTapes r table n).length = k at *
  subst hk
  obtain ⟨hf', hpass⟩ := passing_of_steps htape ht hn hμ hf hpos h
  have hb := hμ.balanced_of_steps h
  refine ⟨fun e f => hpass.sole, hpass.coalesced, ?_, fun hall => ?_⟩
  · rintro ⟨θ, hθ⟩
    by_contra hnone
    refine hθ (through_of_stuck htape hμ h hf' hpass (fun i => ?_) θ)
    rw [Option.eq_none_iff_forall_ne_some]
    exact fun κ hκ => hnone ⟨i, κ, hκ⟩
  · exact hpass.through hb ht fun i => position_of_through htape hf' hpass (hall i)

/-- The places of two events. -/
def twoPlaces : Vector Address 2 := #v[⟨4096, by decide⟩, ⟨4168, by decide⟩]

/-- The second thread falls asleep first, and then the first one; the signal goes round
once. -/
def roundRun {t : Nat} (θ η : Fin t) : List (Action t) :=
  [.start η, .acquire η, .work η false, .sleep η,
    .start θ, .acquire θ, .work θ false, .notify θ (some η), .leave θ,
    .start θ, .acquire θ, .work θ false, .sleep θ,
    .acquire η, .work η false, .leave η,
    .start η, .acquire η, .work η false, .notify η (some θ), .leave η,
    .acquire θ, .work θ false, .leave θ]

/-- Half way round, with the first thread asleep, the second one can go on; in the end both
are through, and each event has seen one signal. -/
theorem ring_handshake_twoPlaces :
    ∃ θ η κ ν,
      (ofTapes 0 (freshLatches 2) (ringTapes .handle twoPlaces 1) .zero).steps Tape.program
        ((roundRun θ η).take 13) = some κ ∧
      ¬ κ.Through Tape.program θ ∧ (∃ ζ κ', κ.advance Tape.program ζ = some κ') ∧
      (ofTapes 0 (freshLatches 2) (ringTapes .handle twoPlaces 1) .zero).steps Tape.program
        (roundRun θ η) = some ν ∧
      ∀ e, (ν.monitor e).latch.signaled = false ∧ (ν.monitor e).latch.stats.posts.toNat = 1 ∧
        (ν.monitor e).latch.stats.consumed.toNat = 1 := by
  have hdistinct : twoPlaces.toList.Nodup := by decide
  obtain ⟨θ, η, hrun⟩ : ∃ θ η : Fin (ringTapes .handle twoPlaces 1).length,
      ((ofTapes 0 (freshLatches 2) (ringTapes .handle twoPlaces 1) .zero).steps Tape.program
        ((roundRun θ η).take 13)).all (fun κ => !decide (κ.Through Tape.program θ)) = true ∧
      ((ofTapes 0 (freshLatches 2) (ringTapes .handle twoPlaces 1) .zero).steps Tape.program
        ((roundRun θ η).take 13)).isSome = true ∧
      ((ofTapes 0 (freshLatches 2) (ringTapes .handle twoPlaces 1) .zero).steps Tape.program
        (roundRun θ η)).all (fun ν => decide (∀ ζ, ν.Through Tape.program ζ)) = true ∧
      ((ofTapes 0 (freshLatches 2) (ringTapes .handle twoPlaces 1) .zero).steps Tape.program
        (roundRun θ η)).isSome = true :=
    ⟨⟨0, by decide⟩, ⟨1, by decide⟩, by decide +kernel⟩
  obtain ⟨hhalf, hκ, hend, hν⟩ := hrun
  obtain ⟨κ, hκ⟩ := Option.isSome_iff_exists.mp hκ
  obtain ⟨ν, hν⟩ := Option.isSome_iff_exists.mp hν
  have hopen : ¬ κ.Through Tape.program θ := by
    simpa using of_steps (f := fun κ => !decide (κ.Through Tape.program θ)) hhalf hκ
  have hall : ∀ ζ, ν.Through Tape.program ζ :=
    of_decide_eq_true (of_steps (f := fun ν => decide (∀ ζ, ν.Through Tape.program ζ)) hend hν)
  obtain ⟨-, -, hgoes, -⟩ := ring_handshake .handle twoPlaces .zero hdistinct (by decide)
    (by decide) hκ
  obtain ⟨-, -, -, hcounts⟩ := ring_handshake .handle twoPlaces .zero hdistinct (by decide)
    (by decide) hν
  refine ⟨θ, η, κ, ν, hκ, hopen, hgoes ⟨θ, hopen⟩, hν, fun e => ?_⟩
  obtain ⟨hunset, hposts, -, hconsumed, -⟩ := hcounts hall e
  exact ⟨hunset, hposts, hconsumed⟩

end Machine

end AutoReset.Threads
