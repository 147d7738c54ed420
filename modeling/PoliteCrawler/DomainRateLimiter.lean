/-
This file models the rate limiter of a worker process.

Every operation first reads the clock and then updates the entry of its domain
as one atomic step, so the reading is an argument: another operation may have
updated the entry with a later reading in between. `await_acquiring` holds the
entry while it sleeps; it acts on the entry when it lets go of it, and writes
the reading it took before it slept.
-/

import PoliteCrawler.Common
import Mathlib.Logic.Function.Basic

namespace PoliteCrawler

structure DomainState where
  delay : Duration
  lastAccessed : Instant
  deriving DecidableEq, Repr

structure DomainRateLimiter where
  map : String → Option DomainState
  defaultDelay : Duration

/-- `later.saturating_duration_since(earlier)` -/
def saturatingDurationSince (later earlier : Instant) : Duration := (later - earlier).toNat

/-- A delay that has passed lies between the instants. -/
theorem add_le_of_le_saturatingDurationSince {later earlier : Instant} {delay : Duration}
    (positive : 0 < delay) (passed : delay ≤ saturatingDurationSince later earlier) :
    earlier + (delay : Int) ≤ later := by
  have integers : ∀ (later earlier : Int) (delay : Nat), 0 < delay →
      delay ≤ (later - earlier).toNat → earlier + (delay : Int) ≤ later := by omega
  exact integers later earlier delay positive passed

namespace DomainRateLimiter

def new (defaultDelay : Duration) : DomainRateLimiter := ⟨fun _ => none, defaultDelay⟩

/-- The entry of a domain, made when it is missing so that the domain is free at once. -/
def entry (limiter : DomainRateLimiter) (domain : String) (now : Instant) : DomainState :=
  (limiter.map domain).getD ⟨limiter.defaultDelay, now - limiter.defaultDelay⟩

def setEntry (limiter : DomainRateLimiter) (domain : String) (state : DomainState) :
    DomainRateLimiter :=
  { limiter with map := Function.update limiter.map domain (some state) }

def tryAcquire (limiter : DomainRateLimiter) (domain : String) (now : Instant) :
    Bool × DomainRateLimiter :=
  let state := limiter.entry domain now
  if state.delay ≤ saturatingDurationSince now state.lastAccessed then
    (true, limiter.setEntry domain { state with lastAccessed := now })
  else (false, limiter.setEntry domain state)

def updateDelay (limiter : DomainRateLimiter) (domain : String) (newDelay : Duration)
    (now : Instant) : DomainRateLimiter :=
  match limiter.map domain with
  | some state => limiter.setEntry domain { state with delay := newDelay }
  | none => limiter.setEntry domain ⟨newDelay, now - newDelay⟩

/-- The time slept is the time since the last access. -/
def awaitAcquiring (limiter : DomainRateLimiter) (domain : String) (now : Instant) :
    Duration × DomainRateLimiter :=
  let state := limiter.entry domain now
  (saturatingDurationSince now state.lastAccessed,
    limiter.setEntry domain { state with lastAccessed := now })

/-! ### The entries after an operation -/

variable (limiter : DomainRateLimiter) (domain : String) (now : Instant)

@[simp] theorem map_setEntry_self (state : DomainState) :
    (limiter.setEntry domain state).map domain = some state := by
  simp only [setEntry, Function.update_self]

theorem map_setEntry_of_ne (state : DomainState) {other : String} (different : other ≠ domain) :
    (limiter.setEntry domain state).map other = limiter.map other := by
  simp only [setEntry, Function.update_of_ne different]

/-- A grant comes when the delay has passed, and is the last access from then on. -/
theorem tryAcquire_granted (granted : (limiter.tryAcquire domain now).1 = true) :
    (limiter.entry domain now).delay ≤
        saturatingDurationSince now (limiter.entry domain now).lastAccessed ∧
      (limiter.tryAcquire domain now).2 =
        limiter.setEntry domain { limiter.entry domain now with lastAccessed := now } := by
  by_cases passed : (limiter.entry domain now).delay ≤
      saturatingDurationSince now (limiter.entry domain now).lastAccessed
  · exact ⟨passed, by simp only [tryAcquire, if_pos passed]⟩
  · simp only [tryAcquire, if_neg passed] at granted
    cases granted

/-- A refusal only makes the entry. -/
theorem tryAcquire_refused (refused : (limiter.tryAcquire domain now).1 = false) :
    (limiter.tryAcquire domain now).2 =
      limiter.setEntry domain (limiter.entry domain now) := by
  by_cases passed : (limiter.entry domain now).delay ≤
      saturatingDurationSince now (limiter.entry domain now).lastAccessed
  · simp only [tryAcquire, if_pos passed] at refused
    cases refused
  · simp only [tryAcquire, if_neg passed]

end DomainRateLimiter

/-! ### What the limiter remembers -/

/-- The limiter remembers a last access of the domain that is not before the stamp. -/
def DomainRateLimiter.Since (limiter : DomainRateLimiter) (domain : String) (stamp : Instant) :
    Prop :=
  ∃ state, limiter.map domain = some state ∧ stamp ≤ state.lastAccessed

theorem DomainRateLimiter.since_setEntry (limiter : DomainRateLimiter) (domain : String)
    (state : DomainState) : (limiter.setEntry domain state).Since domain state.lastAccessed :=
  ⟨state, limiter.map_setEntry_self domain state, le_rfl⟩

/-- A change of one entry is remembered with the others, unless it turns its last access back. -/
theorem DomainRateLimiter.Since.setEntry {limiter : DomainRateLimiter} {domain changed : String}
    {stamp : Instant} {after : DomainState} (since : limiter.Since domain stamp)
    (kept : domain = changed → ∀ state, limiter.map changed = some state →
      stamp ≤ state.lastAccessed → stamp ≤ after.lastAccessed) :
    (limiter.setEntry changed after).Since domain stamp := by
  obtain ⟨state, entered, recent⟩ := since
  by_cases same : domain = changed
  · subst same
    exact ⟨after, limiter.map_setEntry_self domain after, kept rfl state entered recent⟩
  · exact ⟨state, (limiter.map_setEntry_of_ne changed after same).trans entered, recent⟩

/-- An entry that exists is the one that is used. -/
theorem DomainRateLimiter.entry_of_some {limiter : DomainRateLimiter} {domain : String}
    {state : DomainState} (entered : limiter.map domain = some state) (now : Instant) :
    limiter.entry domain now = state := by
  rw [entry, entered]
  rfl

end PoliteCrawler
