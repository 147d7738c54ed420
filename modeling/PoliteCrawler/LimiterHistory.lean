/-
This file spaces the grants of a rate limiter that any number of threads use.

A call reads the clock first and updates the entry of its domain later, so the
readings reach an entry out of order. A grant at a positive delay is after the
last access by that delay, and the last access covers every grant before it. At
the delay zero an older reading passes as well, because the saturated difference
is zero: it is a grant before an earlier one, and it turns the last access back.
These are the only grants that are not spaced.
-/

import PoliteCrawler.DomainRateLimiter
import PoliteCrawler.Transition

namespace PoliteCrawler

/-! ### Histories -/

inductive LimiterCall
  | tryAcquire (domain : String)
  | updateDelay (domain : String) (newDelay : Duration)

/-- A successful `try_acquire`: its clock reading, and the delay of the domain where it was made. -/
structure Acquired where
  domain : String
  stamp : Instant
  delay : Duration
  deriving DecidableEq, Repr

/-- The threads that use a limiter, each with the call it is in and the clock reading of that. -/
structure LimiterHistory (Thread : Type) where
  limiter : DomainRateLimiter
  clock : Instant
  pending : Thread → Option (LimiterCall × Instant)
  acquired : List Acquired

inductive HistoryAction (Thread : Type)
  /-- The thread calls and reads the clock. -/
  | call (thread : Thread) (call : LimiterCall)
  /-- The thread updates the entry. -/
  | enter (thread : Thread)
  | tick (elapsed : Duration)

section Step

variable {Thread : Type}

def LimiterHistory.begin (defaultDelay : Duration) (clock : Instant) : LimiterHistory Thread :=
  ⟨DomainRateLimiter.new defaultDelay, clock, fun _ => none, []⟩

/-- The update of the entry by a call with its clock reading. -/
def LimiterHistory.perform (history : LimiterHistory Thread) (stamp : Instant) :
    LimiterCall → LimiterHistory Thread
  | .tryAcquire domain =>
    let tried := history.limiter.tryAcquire domain stamp
    let acquired : Acquired := ⟨domain, stamp, (history.limiter.entry domain stamp).delay⟩
    { history with
      limiter := tried.2
      acquired := if tried.1 then history.acquired ++ [acquired] else history.acquired }
  | .updateDelay domain newDelay =>
    { history with limiter := history.limiter.updateDelay domain newDelay stamp }

variable [DecidableEq Thread]

def historyStep : HistoryAction Thread → LimiterHistory Thread → Option (LimiterHistory Thread)
  | .call thread call, history =>
    match history.pending thread with
    | some _ => none
    | none => some { history with
        pending := Function.update history.pending thread (some (call, history.clock)) }
  | .enter thread, history =>
    (history.pending thread).map fun called =>
      { history.perform called.2 called.1 with
        pending := Function.update history.pending thread none }
  | .tick elapsed, history => some { history with clock := history.clock + elapsed }

end Step

/-! ### Spaced grants -/

section Spacing

variable {Thread : Type}

/-- Every grant is later than each earlier grant of its domain, by the delay it was made at. -/
def LimiterHistory.Spaced (history : LimiterHistory Thread) : Prop :=
  history.acquired.Pairwise fun earlier later =>
    earlier.domain = later.domain → earlier.stamp + (later.delay : Int) ≤ later.stamp

/-- No `try_acquire` enters at the delay zero with a clock reading older than an earlier grant of
its domain. -/
def inOrder (history : LimiterHistory Thread) : HistoryAction Thread → Bool
  | .enter thread =>
    match history.pending thread with
    | some (.tryAcquire domain, stamp) =>
      (history.limiter.entry domain stamp).delay ≠ 0 ||
        history.acquired.all fun earlier => earlier.domain ≠ domain || earlier.stamp ≤ stamp
    | _ => true
  | _ => true

/-- The last access of a domain covers every grant of it. -/
def LimiterHistory.Remembers (history : LimiterHistory Thread) : Prop :=
  ∀ earlier ∈ history.acquired, history.limiter.Since earlier.domain earlier.stamp

/-- The history after a grant of the domain. -/
def LimiterHistory.grant (history : LimiterHistory Thread) (domain : String) (stamp : Instant) :
    LimiterHistory Thread :=
  { history with
    limiter := history.limiter.setEntry domain
      { history.limiter.entry domain stamp with lastAccessed := stamp }
    acquired := history.acquired ++
      [⟨domain, stamp, (history.limiter.entry domain stamp).delay⟩] }

variable {history : LimiterHistory Thread} {domain : String} {stamp : Instant}

theorem LimiterHistory.perform_tryAcquire (history : LimiterHistory Thread) (domain : String)
    (stamp : Instant) :
    ((history.limiter.entry domain stamp).delay ≤
        saturatingDurationSince stamp (history.limiter.entry domain stamp).lastAccessed ∧
      history.perform stamp (.tryAcquire domain) = history.grant domain stamp) ∨
    (saturatingDurationSince stamp (history.limiter.entry domain stamp).lastAccessed <
        (history.limiter.entry domain stamp).delay ∧
      history.perform stamp (.tryAcquire domain) =
        { history with limiter :=
            history.limiter.setEntry domain (history.limiter.entry domain stamp) }) := by
  by_cases passed : (history.limiter.entry domain stamp).delay ≤
      saturatingDurationSince stamp (history.limiter.entry domain stamp).lastAccessed
  · refine Or.inl ⟨passed, ?_⟩
    simp only [perform, DomainRateLimiter.tryAcquire, if_pos passed, if_true, grant]
  · refine Or.inr ⟨Nat.lt_of_not_le passed, ?_⟩
    simp only [perform, DomainRateLimiter.tryAcquire, if_neg passed, Bool.false_eq_true, if_false]

/-- A grant is after what the limiter remembers by its delay, unless it comes too early at the delay
zero. -/
theorem LimiterHistory.Remembers.spaced_from (remembers : history.Remembers)
    (passed : (history.limiter.entry domain stamp).delay ≤
      saturatingDurationSince stamp (history.limiter.entry domain stamp).lastAccessed)
    (ordered : (history.limiter.entry domain stamp).delay = 0 →
      ∀ earlier ∈ history.acquired, earlier.domain = domain → earlier.stamp ≤ stamp)
    {earlier : Acquired} (member : earlier ∈ history.acquired) (same : earlier.domain = domain) :
    earlier.stamp + ((history.limiter.entry domain stamp).delay : Int) ≤ stamp := by
  rcases Nat.eq_zero_or_pos (history.limiter.entry domain stamp).delay with zero | positive
  · rw [zero]
    exact (Int.add_zero _).le.trans (ordered zero earlier member same)
  · obtain ⟨state, entered, recent⟩ := remembers earlier member
    rw [same] at entered
    rw [DomainRateLimiter.entry_of_some entered] at passed positive ⊢
    exact (add_le_add_left recent _).trans (add_le_of_le_saturatingDurationSince positive passed)

theorem LimiterHistory.Remembers.grant (remembers : history.Remembers)
    (covered : ∀ earlier ∈ history.acquired, earlier.domain = domain → earlier.stamp ≤ stamp) :
    (history.grant domain stamp).Remembers := by
  intro earlier member
  rcases List.mem_append.mp member with old | new
  · exact (remembers earlier old).setEntry fun same _ _ _ => covered earlier old same
  · rw [List.mem_singleton.mp new]
    exact history.limiter.since_setEntry domain _

theorem LimiterHistory.Spaced.grant (spaced : history.Spaced)
    (from_all : ∀ earlier ∈ history.acquired, earlier.domain = domain →
      earlier.stamp + ((history.limiter.entry domain stamp).delay : Int) ≤ stamp) :
    (history.grant domain stamp).Spaced := by
  refine List.pairwise_append.mpr ⟨spaced, List.pairwise_singleton _ _, ?_⟩
  intro earlier member later new same
  rw [List.mem_singleton.mp new] at same ⊢
  exact from_all earlier member same

/-- A refusal makes the entry, and an update of the delay leaves the last access alone. -/
theorem LimiterHistory.Remembers.refuse (remembers : history.Remembers) (domain : String)
    (stamp : Instant) {earlier : Acquired} (member : earlier ∈ history.acquired) :
    (history.limiter.setEntry domain (history.limiter.entry domain stamp)).Since earlier.domain
      earlier.stamp := by
  refine (remembers earlier member).setEntry fun _ state entered recent => ?_
  rw [DomainRateLimiter.entry_of_some entered]
  exact recent

theorem LimiterHistory.Remembers.updateDelay (remembers : history.Remembers) (domain : String)
    (newDelay : Duration) (stamp : Instant) {earlier : Acquired}
    (member : earlier ∈ history.acquired) :
    (history.limiter.updateDelay domain newDelay stamp).Since earlier.domain earlier.stamp := by
  unfold DomainRateLimiter.updateDelay
  cases entered : history.limiter.map domain with
  | some state =>
    refine (remembers earlier member).setEntry fun _ other found recent => ?_
    obtain rfl := Option.some.inj (entered.symm.trans found)
    exact recent
  | none =>
    refine (remembers earlier member).setEntry fun _ other found _ => ?_
    rw [entered] at found
    cases found

/-- The limiter remembers its grants, and they are spaced. -/
structure LimiterHistory.Kept (history : LimiterHistory Thread) : Prop where
  remembers : history.Remembers
  spaced : history.Spaced

/-- A call that enters in order keeps the spacing. -/
theorem LimiterHistory.Kept.perform (kept : history.Kept) (stamp : Instant) (call : LimiterCall)
    (ordered : ∀ domain, call = .tryAcquire domain →
      (history.limiter.entry domain stamp).delay = 0 →
        ∀ earlier ∈ history.acquired, earlier.domain = domain → earlier.stamp ≤ stamp) :
    (history.perform stamp call).Kept := by
  obtain ⟨remembers, spaced⟩ := kept
  cases call with
  | tryAcquire domain =>
    rcases history.perform_tryAcquire domain stamp with ⟨passed, granted⟩ | ⟨_, refused⟩
    · rw [granted]
      have from_all : ∀ earlier ∈ history.acquired, earlier.domain = domain →
          earlier.stamp + ((history.limiter.entry domain stamp).delay : Int) ≤ stamp :=
        fun earlier member same => remembers.spaced_from passed (ordered domain rfl) member same
      have covered : ∀ earlier ∈ history.acquired, earlier.domain = domain →
          earlier.stamp ≤ stamp := fun earlier member same =>
        (Int.le_add_of_nonneg_right (Int.natCast_nonneg _)).trans (from_all earlier member same)
      exact ⟨remembers.grant covered, spaced.grant from_all⟩
    · rw [refused]
      exact ⟨fun _ member => remembers.refuse domain stamp member, spaced⟩
  | updateDelay domain newDelay =>
    exact ⟨fun _ member => remembers.updateDelay domain newDelay stamp member, spaced⟩

/-- A grant at the delay zero that is older than an earlier one breaks the spacing. -/
theorem LimiterHistory.not_spaced_perform {domain : String} {stamp : Instant} {earlier : Acquired}
    (free : (history.limiter.entry domain stamp).delay = 0) (member : earlier ∈ history.acquired)
    (same : earlier.domain = domain) (older : stamp < earlier.stamp) :
    ¬ (history.perform stamp (.tryAcquire domain)).Spaced := by
  rcases history.perform_tryAcquire domain stamp with ⟨_, granted⟩ | ⟨early, _⟩
  · rw [granted]
    intro spaced
    have late := (List.pairwise_append.mp spaced).2.2 earlier member _ List.mem_cons_self same
    rw [free] at late
    exact absurd (late.trans_lt older) (not_lt_of_ge (Int.add_zero _).ge)
  · rw [free] at early
    exact absurd early (Nat.not_lt_zero _)

/-- Grants are only added. -/
theorem LimiterHistory.acquired_perform (history : LimiterHistory Thread) (stamp : Instant)
    (call : LimiterCall) : history.acquired <+: (history.perform stamp call).acquired := by
  cases call with
  | tryAcquire domain =>
    rcases history.perform_tryAcquire domain stamp with ⟨_, granted⟩ | ⟨_, refused⟩
    · rw [granted]
      exact List.prefix_append _ _
    · rw [refused]
  | updateDelay domain newDelay => exact List.prefix_rfl

end Spacing

/-! ### Runs -/

section Runs

variable {Thread : Type} [DecidableEq Thread] {history next : LimiterHistory Thread}
  {action : HistoryAction Thread}

theorem historyStep_kept (moved : historyStep action history = some next) (kept : history.Kept)
    (ordered : inOrder history action = true) : next.Kept := by
  cases action with
  | call thread call =>
    rw [historyStep] at moved
    split at moved <;> cases moved
    exact ⟨kept.remembers, kept.spaced⟩
  | enter thread =>
    obtain ⟨⟨call, stamp⟩, pending, rfl⟩ := Option.map_eq_some_iff.mp moved
    have performed : (history.perform stamp call).Kept := by
      refine kept.perform stamp call ?_
      rintro domain rfl free earlier member same
      simp only [inOrder, pending, free, ne_eq, not_true_eq_false, decide_false, Bool.false_or,
        List.all_eq_true] at ordered
      have either := ordered earlier member
      rw [same] at either
      simpa using either
    exact ⟨performed.remembers, performed.spaced⟩
  | tick elapsed =>
    cases moved
    exact ⟨kept.remembers, kept.spaced⟩

theorem historyStep_breaks (moved : historyStep action history = some next)
    (ordered : ¬ inOrder history action = true) : ¬ next.Spaced := by
  cases action with
  | enter thread =>
    obtain ⟨⟨call, stamp⟩, pending, rfl⟩ := Option.map_eq_some_iff.mp moved
    cases call with
    | tryAcquire domain =>
      simp only [inOrder, pending, Bool.or_eq_true, List.all_eq_true, not_or, not_forall] at ordered
      obtain ⟨free, earlier, member, same, older⟩ := ordered
      exact LimiterHistory.not_spaced_perform (by simpa using free) member (by simpa using same)
        (by simpa using older)
    | updateDelay domain newDelay =>
      rw [inOrder, pending] at ordered
      exact absurd rfl ordered
  | _ => exact absurd rfl ordered

theorem historyStep_lasts (moved : historyStep action history = some next)
    (broken : ¬ history.Spaced) : ¬ next.Spaced := by
  have longer : history.acquired <+: next.acquired := by
    cases action with
    | call thread call =>
      rw [historyStep] at moved
      split at moved <;> cases moved
      exact List.prefix_rfl
    | enter thread =>
      obtain ⟨⟨call, stamp⟩, _, rfl⟩ := Option.map_eq_some_iff.mp moved
      exact history.acquired_perform stamp call
    | tick elapsed =>
      cases moved
      exact List.prefix_rfl
  exact fun spaced => broken (List.Pairwise.sublist longer.sublist spaced)

/-- The grants of a history are spaced exactly when no call at the delay zero comes with a clock
reading older than an earlier grant of its domain. -/
theorem spaced_iff_inOrder {defaultDelay : Duration} {clock : Instant}
    {actions : List (HistoryAction Thread)}
    (ran : Transition.run historyStep actions (LimiterHistory.begin defaultDelay clock) =
      some history) :
    history.Spaced ↔
      Transition.Permits historyStep (fun history action => inOrder history action = true) actions
        (LimiterHistory.begin defaultDelay clock) :=
  Transition.holds_iff_permits (fun _ kept => LimiterHistory.Kept.spaced kept)
    (fun _ _ _ kept ordered moved => historyStep_kept moved kept ordered)
    (fun _ _ _ _ ordered moved => historyStep_breaks moved ordered)
    (fun _ _ _ broken moved => historyStep_lasts moved broken) ran
    ⟨fun _ => nofun, List.Pairwise.nil⟩

end Runs

/-! ### Sample histories -/

/-- Two threads try the same domain, and the one that read the clock first enters last. -/
def sampleOvertaking (delay : Duration) : List (HistoryAction Bool) :=
  [.call false (.updateDelay "a.example" delay), .enter false,
    .call false (.tryAcquire "a.example"), .tick 5, .call true (.tryAcquire "a.example"),
    .enter true, .enter false]

/-- With a positive delay the late entry is refused. -/
theorem spaced_iff_inOrder_sample : ∃ history,
    Transition.run historyStep (sampleOvertaking 3) (LimiterHistory.begin (10 ^ 9) 0) =
      some history ∧
    (history.Spaced ↔ Transition.Permits historyStep
      (fun history action => inOrder history action = true) (sampleOvertaking 3)
        (LimiterHistory.begin (10 ^ 9) 0)) ∧
    history.acquired = [⟨"a.example", 5, 3⟩] := by
  obtain ⟨history, ran⟩ : ∃ history, Transition.run historyStep (sampleOvertaking 3)
    (LimiterHistory.begin (10 ^ 9) 0) = some history := ⟨_, rfl⟩
  have acquired : (Transition.run historyStep (sampleOvertaking 3)
      (LimiterHistory.begin (10 ^ 9) 0)).map (fun history => history.acquired) =
        some [⟨"a.example", 5, 3⟩] := by decide +kernel
  rw [ran] at acquired
  exact ⟨history, ran, spaced_iff_inOrder ran, Option.some.inj acquired⟩

/-- The delay is raised after that, and the second thread tries again. -/
def sampleRaised : List (HistoryAction Bool) :=
  sampleOvertaking 0 ++ [.call true (.updateDelay "a.example" 3), .enter true,
    .call true (.tryAcquire "a.example"), .enter true]

/-- Without a delay the late entry is granted and turns the last access back: a grant at the delay
3 has the clock reading of the first one. -/
theorem overtaken_grant : ∃ history : LimiterHistory Bool,
    Transition.Reaches historyStep (LimiterHistory.begin (10 ^ 9) 0) history ∧
      ¬ history.Spaced := by
  obtain ⟨history, ran⟩ : ∃ history, Transition.run historyStep sampleRaised
    (LimiterHistory.begin (10 ^ 9) 0) = some history := ⟨_, rfl⟩
  have acquired : (Transition.run historyStep sampleRaised
      (LimiterHistory.begin (10 ^ 9) 0)).map (fun history => history.acquired) =
        some [⟨"a.example", 5, 0⟩, ⟨"a.example", 0, 0⟩, ⟨"a.example", 5, 3⟩] := by decide +kernel
  rw [ran] at acquired
  refine ⟨history, Transition.reaches_of_run ran, fun spaced => ?_⟩
  rw [LimiterHistory.Spaced, show history.acquired = _ from Option.some.inj acquired] at spaced
  exact absurd (List.rel_of_pairwise_cons spaced (List.mem_cons_of_mem _ List.mem_cons_self) rfl)
    (by decide)

end PoliteCrawler
