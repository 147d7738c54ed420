/-
This file says when `await_acquiring` waits out the delay of its domain.

The calls of a history come one after the other, and a sleep lets exactly the
time pass that it is asked for. `await_acquiring` sleeps for as long as the last
access is ago, and writes the reading it took before the sleep. So right after a
grant it returns too early, and after a longer pause it writes a time that is
past when it returns. Both are right only where nothing has to be waited for.
-/

import PoliteCrawler.DomainRateLimiter
import PoliteCrawler.Transition

namespace PoliteCrawler

/-! ### Timed calls -/

/-- A limiter with the time, and the time at which each domain was granted last. -/
structure GrantClock where
  limiter : DomainRateLimiter
  clock : Instant
  granted : String → Option Instant

inductive LimiterUse
  | tick (elapsed : Duration)
  | updateDelay (domain : String) (newDelay : Duration)
  | tryAcquire (domain : String)
  | awaitAcquiring (domain : String)

namespace GrantClock

def begin (defaultDelay : Duration) (clock : Instant) : GrantClock :=
  ⟨DomainRateLimiter.new defaultDelay, clock, fun _ => none⟩

/-- The domain is granted at the time. -/
def grant (history : GrantClock) (domain : String) : GrantClock :=
  { history with granted := Function.update history.granted domain (some history.clock) }

def tryAcquire (history : GrantClock) (domain : String) : GrantClock :=
  let tried := history.limiter.tryAcquire domain history.clock
  let after := { history with limiter := tried.2 }
  if tried.1 then after.grant domain else after

/-- The call returns, with its grant, when it has slept. -/
def awaitAcquiring (history : GrantClock) (domain : String) : GrantClock :=
  let waited := history.limiter.awaitAcquiring domain history.clock
  grant { history with limiter := waited.2, clock := history.clock + waited.1 } domain

end GrantClock

def useStep : LimiterUse → GrantClock → Option GrantClock
  | .tick elapsed, history => some { history with clock := history.clock + elapsed }
  | .updateDelay domain newDelay, history =>
    some { history with limiter := history.limiter.updateDelay domain newDelay history.clock }
  | .tryAcquire domain, history => some (history.tryAcquire domain)
  | .awaitAcquiring domain, history => some (history.awaitAcquiring domain)

/-! ### The last access and the last grant -/

namespace GrantClock

/-- A domain that was granted has an entry, whose last access is not after the grant. -/
def Recorded (history : GrantClock) : Prop :=
  ∀ domain last, history.granted domain = some last → last ≤ history.clock ∧
    ∃ state, history.limiter.map domain = some state ∧ state.lastAccessed ≤ last

variable {history : GrantClock} {domain : String}

/-- A new entry of one domain is recorded when it fits the last grant of that domain. -/
theorem Recorded.setEntry (recorded : history.Recorded) {after : DomainState}
    {clock : Instant} {granted : Option Instant} (later : history.clock ≤ clock)
    (fits : ∀ last, granted = some last → last ≤ clock ∧ after.lastAccessed ≤ last) :
    Recorded ⟨history.limiter.setEntry domain after, clock,
      Function.update history.granted domain granted⟩ := by
  intro other last found
  by_cases same : other = domain
  · subst same
    simp only [Function.update_self] at found
    exact ⟨(fits last found).1, after, history.limiter.map_setEntry_self other after,
      (fits last found).2⟩
  · simp only [Function.update_of_ne same] at found
    obtain ⟨past, state, entered, accessed⟩ := recorded other last found
    exact ⟨past.trans later, state,
      (history.limiter.map_setEntry_of_ne domain after same).trans entered, accessed⟩

/-- An entry whose last access stays as it was is recorded. -/
theorem Recorded.sameAccess (recorded : history.Recorded) {after : DomainState}
    (same : ∀ state, history.limiter.map domain = some state →
      after.lastAccessed = state.lastAccessed) :
    Recorded { history with limiter := history.limiter.setEntry domain after } := by
  have kept : (∀ last, history.granted domain = some last → _) →
      Recorded ⟨history.limiter.setEntry domain after, history.clock,
        Function.update history.granted domain (history.granted domain)⟩ :=
    recorded.setEntry le_rfl
  rw [Function.update_eq_self] at kept
  refine kept fun last found => ?_
  obtain ⟨past, state, entered, accessed⟩ := recorded domain last found
  exact ⟨past, (same state entered).le.trans accessed⟩

/-- A step of the domain's own entry keeps the last access no later than the last grant. -/
theorem Recorded.tryAcquire (recorded : history.Recorded) (domain : String) :
    (history.tryAcquire domain).Recorded := by
  cases acquired : (history.limiter.tryAcquire domain history.clock).1 with
  | true =>
    obtain ⟨_, entered⟩ := history.limiter.tryAcquire_granted domain history.clock acquired
    simp only [GrantClock.tryAcquire, acquired, if_true, grant, entered]
    refine recorded.setEntry le_rfl fun last same => ?_
    obtain rfl := Option.some.inj same
    exact ⟨le_rfl, le_rfl⟩
  | false =>
    have entered := history.limiter.tryAcquire_refused domain history.clock acquired
    simp only [GrantClock.tryAcquire, acquired, Bool.false_eq_true, if_false, entered]
    refine recorded.sameAccess fun state found => ?_
    rw [DomainRateLimiter.entry_of_some found]

theorem Recorded.awaitAcquiring (recorded : history.Recorded) (domain : String) :
    (history.awaitAcquiring domain).Recorded := by
  refine recorded.setEntry (Int.le_add_of_nonneg_right (Int.natCast_nonneg _)) fun last same => ?_
  obtain rfl := Option.some.inj same
  exact ⟨le_rfl, Int.le_add_of_nonneg_right (Int.natCast_nonneg _)⟩

theorem Recorded.updateDelay (recorded : history.Recorded) (domain : String)
    (newDelay : Duration) :
    Recorded { history with
      limiter := history.limiter.updateDelay domain newDelay history.clock } := by
  unfold DomainRateLimiter.updateDelay
  cases entered : history.limiter.map domain with
  | some state =>
    refine recorded.sameAccess fun other found => ?_
    obtain rfl := Option.some.inj (entered.symm.trans found)
    rfl
  | none =>
    refine recorded.sameAccess fun other found => ?_
    cases entered.symm.trans found

theorem recorded_of_reaches {defaultDelay : Duration} {clock : Instant}
    (reached : Transition.Reaches useStep (begin defaultDelay clock) history) :
    history.Recorded := by
  refine reached.invariant (fun _ _ => nofun) fun before action after recorded _ moved => ?_
  cases action with
  | tick elapsed =>
    cases moved
    intro domain last found
    obtain ⟨past, entry⟩ := recorded domain last found
    exact ⟨past.trans (Int.le_add_of_nonneg_right (Int.natCast_nonneg _)), entry⟩
  | updateDelay domain newDelay =>
    cases moved
    exact recorded.updateDelay domain newDelay
  | tryAcquire domain =>
    cases moved
    exact recorded.tryAcquire domain
  | awaitAcquiring domain =>
    cases moved
    exact recorded.awaitAcquiring domain

/-! ### Taking the slot -/

/-- The call of `await_acquiring` returns no earlier than the delay after the grant at `last`, and
takes the slot: its return is the last access of the domain, so whichever call is granted next is
granted no earlier than the delay after it. -/
structure TakesSlot (history : GrantClock) (domain : String) (last : Instant) : Prop where
  waits : last + ((history.limiter.entry domain history.clock).delay : Int) ≤
    (history.awaitAcquiring domain).clock
  records : ((history.awaitAcquiring domain).limiter.map domain).map DomainState.lastAccessed =
    some (history.awaitAcquiring domain).clock
  spacesTries : ∀ now, (history.awaitAcquiring domain).clock ≤ now →
    ((history.awaitAcquiring domain).limiter.tryAcquire domain now).1 = true →
      (history.awaitAcquiring domain).clock +
        ((history.limiter.entry domain history.clock).delay : Int) ≤ now
  spacesWaits : ∀ now, (history.awaitAcquiring domain).clock ≤ now →
    (history.awaitAcquiring domain).clock +
      ((history.limiter.entry domain history.clock).delay : Int) ≤
        now + ((history.awaitAcquiring domain).limiter.awaitAcquiring domain now).1

/-- The entry keeps its delay, and the reading before the sleep is the last access. -/
theorem map_awaitAcquiring (history : GrantClock) (domain : String) :
    (history.awaitAcquiring domain).limiter.map domain =
      some ⟨(history.limiter.entry domain history.clock).delay, history.clock⟩ :=
  history.limiter.map_setEntry_self domain _

theorem clock_awaitAcquiring (history : GrantClock) (domain : String) :
    (history.awaitAcquiring domain).clock = history.clock +
      (saturatingDurationSince history.clock
        (history.limiter.entry domain history.clock).lastAccessed : Int) := rfl

/-- A sleep for as long as the last access is ago both ends after the delay and at the time that is
written only when nothing is slept. -/
theorem slept_nothing_iff (delay : Duration) {access last now : Instant} (accessed : access ≤ last)
    (past : last ≤ now) :
    (last + (delay : Int) ≤ now + (saturatingDurationSince now access : Int) ∧
        now = now + (saturatingDurationSince now access : Int)) ↔
      delay = 0 ∧ access = now := by
  have integers : ∀ (access last now : Int) (delay : Nat), access ≤ last → last ≤ now →
      ((last + delay ≤ now + (now - access).toNat ∧ now = now + (now - access).toNat) ↔
        delay = 0 ∧ access = now) := by
    intro access last now delay accessed past
    omega
  exact integers access last now delay accessed past

/-- In every history a call of `await_acquiring` waits out the delay of a domain and takes the slot
exactly when the domain has no delay and its last access is at the time of the call. -/
theorem takesSlot_iff {defaultDelay : Duration} {clock : Instant}
    (reached : Transition.Reaches useStep (begin defaultDelay clock) history) {last : Instant}
    (granted : history.granted domain = some last) :
    history.TakesSlot domain last ↔
      (history.limiter.entry domain history.clock).delay = 0 ∧
        (history.limiter.entry domain history.clock).lastAccessed = history.clock := by
  obtain ⟨past, state, entered, accessed⟩ := recorded_of_reaches reached domain last granted
  have entry := DomainRateLimiter.entry_of_some entered history.clock
  have returns := history.clock_awaitAcquiring domain
  rw [entry] at returns ⊢
  have both := slept_nothing_iff state.delay accessed past
  constructor
  · rintro ⟨waits, records, _, _⟩
    rw [entry, returns] at waits
    rw [map_awaitAcquiring, returns, Option.map_some, Option.some.injEq] at records
    exact both.mp ⟨waits, records⟩
  · rintro ⟨free, same⟩
    obtain ⟨waits, records⟩ := both.mpr ⟨free, same⟩
    refine ⟨?_, ?_, fun later after _ => ?_, fun later after => ?_⟩
    · rwa [entry, returns]
    · rw [map_awaitAcquiring, returns]
      exact congrArg some records
    · rw [entry, free]
      exact (add_zero _).le.trans after
    · rw [entry, free]
      exact (add_zero _).le.trans (after.trans (Int.le_add_of_nonneg_right (Int.natCast_nonneg _)))

/-- A domain with the delay is granted, and the time passes. -/
def sampleGrant (delay elapsed : Duration) : List LimiterUse :=
  [.updateDelay "a.example" delay, .tryAcquire "a.example", .tick elapsed]

/-- A domain without a delay is taken right after its grant. -/
theorem takesSlot_iff_sample : ∃ history,
    Transition.run useStep (sampleGrant 0 0) (begin (10 ^ 9) 0) = some history ∧
      history.granted "a.example" = some 0 ∧
      (history.TakesSlot "a.example" 0 ↔
        (history.limiter.entry "a.example" history.clock).delay = 0 ∧
          (history.limiter.entry "a.example" history.clock).lastAccessed = history.clock) := by
  obtain ⟨history, ran⟩ : ∃ history,
      Transition.run useStep (sampleGrant 0 0) (begin (10 ^ 9) 0) = some history := ⟨_, rfl⟩
  have granted : (Transition.run useStep (sampleGrant 0 0) (begin (10 ^ 9) 0)).map
      (fun history => history.granted "a.example") = some (some 0) := by decide +kernel
  rw [ran] at granted
  have last : history.granted "a.example" = some 0 := Option.some.inj granted
  exact ⟨history, ran, last, takesSlot_iff (Transition.reaches_of_run ran) last⟩

/-- A second is to be waited for, and a tenth of it has passed since the grant: the call returns
after two tenths. -/
theorem await_returns_early : ∃ history,
    Transition.Reaches useStep (begin (10 ^ 9) 0) history ∧
      history.granted "a.example" = some 0 ∧
      (history.limiter.entry "a.example" history.clock).delay = 10 ^ 9 ∧
      (history.awaitAcquiring "a.example").clock = 2 * 10 ^ 8 ∧
      ¬ history.TakesSlot "a.example" 0 := by
  obtain ⟨history, ran⟩ : ∃ history,
      Transition.run useStep (sampleGrant (10 ^ 9) (10 ^ 8)) (begin (10 ^ 9) 0) = some history :=
    ⟨_, rfl⟩
  have state : (Transition.run useStep (sampleGrant (10 ^ 9) (10 ^ 8)) (begin (10 ^ 9) 0)).map
      (fun history => (history.granted "a.example",
        (history.limiter.entry "a.example" history.clock).delay,
        (history.awaitAcquiring "a.example").clock)) =
      some (some 0, 10 ^ 9, 2 * 10 ^ 8) := by decide +kernel
  rw [ran, Option.map_some, Option.some.injEq, Prod.mk.injEq, Prod.mk.injEq] at state
  obtain ⟨granted, delay, returns⟩ := state
  refine ⟨history, Transition.reaches_of_run ran, granted, delay, returns, fun takes => ?_⟩
  have waits := takes.waits
  rw [delay, returns] at waits
  exact absurd waits (by decide)

end GrantClock

end PoliteCrawler
