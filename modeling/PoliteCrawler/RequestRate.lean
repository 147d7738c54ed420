/-
This file bounds the rate at which a crawl goes to the network for a domain.

A task goes to the network at most once, and it becomes one through a grant of
its domain; so the grants that no task has used yet are a credit, and a crawl
has made no more requests for a domain than it was granted. The grants in turn
are apart by the delay of the domain, whatever order the workers enter the
limiter in. Together they bound the requests by the time that has passed since
the workers started.

That is so as long as no robots.txt asks for less (one that asks for no delay
counts as zero), and as long as a wait for a sitemap is not overtaken:
`await_acquiring` writes the clock reading it took before it slept, which turns
the last access back when the domain was granted in between.
-/

import PoliteCrawler.CrawlDelay
import PoliteCrawler.RequestBudget
import Mathlib.Algebra.Order.Group.Nat
import Mathlib.Tactic.Linarith

namespace PoliteCrawler

/-! ### What the limiter grants in a time -/

/-- The limiter has granted the domain as often as counted since the start, and each time the delay
after the last. -/
structure DomainRateLimiter.Metered (domain : String) (delay : Duration) (start now : Instant)
    (limiter : DomainRateLimiter) (count : Nat) : Prop where
  defaults : delay ≤ limiter.defaultDelay
  entries : ∀ state, limiter.map domain = some state →
    delay ≤ state.delay ∧ state.lastAccessed ≤ now
  spread : count ≠ 0 → ∃ state, limiter.map domain = some state ∧
    start + (count * delay : Nat) ≤ state.lastAccessed + (delay : Int)

namespace DomainRateLimiter.Metered

variable {domain : String} {delay : Duration} {start now : Instant} {limiter : DomainRateLimiter}
  {count : Nat}

theorem new (atMost : delay ≤ 10 ^ 9) :
    (DomainRateLimiter.new (10 ^ 9)).Metered domain delay start now 0 :=
  ⟨atMost, (fun _ entered => by cases entered), fun counted => absurd rfl counted⟩

/-- The last grant is not in the future. -/
theorem count_le (metered : limiter.Metered domain delay start now count) (later : start ≤ now) :
    count * delay ≤ delay + (now - start).toNat := by
  by_cases counted : count = 0
  · rw [counted, Nat.zero_mul]
    exact Nat.zero_le _
  · obtain ⟨state, entered, spread⟩ := metered.spread counted
    have accessed := (metered.entries state entered).2
    have within : start + (count * delay : Nat) ≤ now + (delay : Int) :=
      spread.trans (by gcongr)
    have elapsed : ((now - start).toNat : Int) = now - start :=
      Int.toNat_of_nonneg (sub_nonneg.mpr later)
    refine Int.ofNat_le.mp ?_
    rw [Nat.cast_add, elapsed]
    linarith

theorem later (metered : limiter.Metered domain delay start now count) {then_ : Instant}
    (after : now ≤ then_) : limiter.Metered domain delay start then_ count where
  defaults := metered.defaults
  entries state entered :=
    ⟨(metered.entries state entered).1, (metered.entries state entered).2.trans after⟩
  spread := metered.spread

/-- A change of an entry that neither lowers the delay of the domain nor turns its last access
back. -/
theorem setEntry (metered : limiter.Metered domain delay start now count) {other : String}
    {after : DomainState}
    (kept : other = domain → delay ≤ after.delay ∧ after.lastAccessed ≤ now ∧
      ∀ state, limiter.map domain = some state → state.lastAccessed ≤ after.lastAccessed) :
    (limiter.setEntry other after).Metered domain delay start now count := by
  by_cases same : other = domain
  · subst same
    obtain ⟨slow, past, notBack⟩ := kept rfl
    refine ⟨metered.defaults, fun state entered => ?_, fun counted => ?_⟩
    · obtain rfl := Option.some.inj ((limiter.map_setEntry_self other after).symm.trans entered)
      exact ⟨slow, past⟩
    · obtain ⟨state, entered, spread⟩ := metered.spread counted
      refine ⟨after, limiter.map_setEntry_self other after, spread.trans ?_⟩
      gcongr
      exact notBack state entered
  · have untouched : (limiter.setEntry other after).map domain = limiter.map domain :=
      limiter.map_setEntry_of_ne other after (Ne.symm same)
    refine ⟨metered.defaults, fun state entered => ?_, fun counted => ?_⟩
    · exact metered.entries state (untouched ▸ entered)
    · obtain ⟨state, entered, spread⟩ := metered.spread counted
      exact ⟨state, untouched.trans entered, spread⟩

/-- The entry of a domain is there or made. -/
theorem entry (metered : limiter.Metered domain delay start now count) {stamp : Instant}
    (past : stamp ≤ now) :
    delay ≤ (limiter.entry domain stamp).delay ∧
      (limiter.entry domain stamp).lastAccessed ≤ now := by
  cases entered : limiter.map domain with
  | some state =>
    rw [entry_of_some entered]
    exact metered.entries state entered
  | none =>
    have made : limiter.entry domain stamp =
        ⟨limiter.defaultDelay, stamp - limiter.defaultDelay⟩ := by
      rw [DomainRateLimiter.entry, entered]
      rfl
    rw [made]
    exact ⟨metered.defaults, (sub_le_self _ (Int.natCast_nonneg _)).trans past⟩

/-- A refusal makes the entry at most. -/
theorem refused (metered : limiter.Metered domain delay start now count) (other : String)
    {stamp : Instant} (past : stamp ≤ now) :
    (limiter.setEntry other (limiter.entry other stamp)).Metered domain delay start now count := by
  refine metered.setEntry ?_
  rintro rfl
  obtain ⟨slow, accessed⟩ := metered.entry past
  refine ⟨slow, accessed, fun state entered => ?_⟩
  rw [entry_of_some entered]

/-- A grant comes the delay after the last, or is the first since the start. -/
theorem granted (metered : limiter.Metered domain delay start now count) {stamp : Instant}
    (past : stamp ≤ now) (since : start ≤ stamp)
    (passed : (limiter.entry domain stamp).delay ≤
      saturatingDurationSince stamp (limiter.entry domain stamp).lastAccessed) :
    (limiter.setEntry domain
      { limiter.entry domain stamp with lastAccessed := stamp }).Metered domain delay start now
        (count + 1) := by
  obtain ⟨slow, _⟩ := metered.entry past
  have paced : delay ≤ saturatingDurationSince stamp (limiter.entry domain stamp).lastAccessed :=
    slow.trans passed
  have held : (limiter.setEntry domain
      { limiter.entry domain stamp with lastAccessed := stamp }).map domain =
        some { limiter.entry domain stamp with lastAccessed := stamp } :=
    limiter.map_setEntry_self domain _
  refine ⟨metered.defaults, fun state entered => ?_, fun _ => ⟨_, held, ?_⟩⟩
  · obtain rfl := Option.some.inj (held.symm.trans entered)
    exact ⟨slow, past⟩
  · -- all but the last grant were spread up to the stamp
    have before : start + (count * delay : Nat) ≤ stamp := by
      by_cases counted : count * delay = 0
      · rw [counted]
        exact (add_zero start).le.trans since
      · have positive : 0 < delay := Nat.pos_of_ne_zero (right_ne_zero_of_mul counted)
        obtain ⟨state, entered, spread⟩ := metered.spread (left_ne_zero_of_mul counted)
        rw [entry_of_some entered] at paced
        exact spread.trans (add_le_of_le_saturatingDurationSince positive paced)
    rw [Nat.succ_mul, Nat.cast_add, ← add_assoc]
    gcongr

theorem updateDelay (metered : limiter.Metered domain delay start now count) {other : String}
    {newDelay : Duration} (slow : other = domain → delay ≤ newDelay) :
    (limiter.updateDelay other newDelay now).Metered domain delay start now count := by
  unfold DomainRateLimiter.updateDelay
  split
  · rename_i state entered
    refine metered.setEntry ?_
    rintro rfl
    refine ⟨slow rfl, (metered.entries state entered).2, fun old same => ?_⟩
    obtain rfl := Option.some.inj (entered.symm.trans same)
    exact le_rfl
  · rename_i missing
    refine metered.setEntry ?_
    rintro rfl
    refine ⟨slow rfl, sub_le_self _ (Int.natCast_nonneg _), fun old same => ?_⟩
    rw [missing] at same
    cases same

end DomainRateLimiter.Metered

/-! ### Requests and grants -/

section Requests

variable {Url : Type} {n : Nat} (crates : Crates Url) (domain : String)

/-- How often a worker can still go to the network for the domain with the grant it has. -/
def Worker.ungiven : Worker Url → Nat
  | .working url _ task => if crates.url.domain url = some domain then task.requestsLeft else 0
  | _ => 0

/-- How often a step of a worker goes to the network for the domain. -/
def Worker.requests : Worker Url → Input Url → Nat
  | .working url _ _, input => if crates.url.domain url = some domain then input.requests else 0
  | _, _ => 0

/-- How often a step of the crawl goes to the network for the domain. -/
def requestsOf : CrawlerAction Url n → Crawler Url n → Nat
  | .worker id input, crawler => (crawler.workers id).requests crates domain input
  | _, _ => 0

/-- How often the domain was granted. -/
def Journal.granted (journal : Journal Url) : Nat :=
  journal.grants.countP (·.domain = domain)

/-- The clock readings of a worker lie between the start and now, and it acquires the domain of its
URL. -/
def Worker.Timed (start now : Instant) : Worker Url → Prop
  | .acquiring url domain stamp =>
    crates.url.domain url = some domain ∧ start ≤ stamp ∧ stamp ≤ now
  | .working _ _ (.sleeping _ stamp) => stamp ≤ now
  | _ => True

/-- The crawl has been granted the domain as often as noted, at the rate. -/
structure Crawler.Metered (delay : Duration) (start : Instant) (crawler : Crawler Url n) : Prop where
  since : start ≤ crawler.shared.clock
  limiter : crawler.shared.limiter.Metered domain delay start crawler.shared.clock
    (crawler.shared.journal.granted domain)
  workers : ∀ id, (crawler.workers id).Timed crates start crawler.shared.clock

/-- A worker does not learn a shorter delay of the domain, and its wait is not overtaken by a grant
of it. -/
def keepsRate (delay : Duration) (limiter : DomainRateLimiter) : Worker Url → Bool
  | .working _ _ (.updatingDelay data) =>
    data.domainString ≠ domain || data.delay.toDuration.all (delay ≤ ·)
  | .working _ _ (.sleeping other stamp) =>
    other ≠ domain || (limiter.map domain).all (·.lastAccessed ≤ stamp)
  | _ => true

def keepsRates (delay : Duration) (crawler : Crawler Url n) : CrawlerAction Url n → Bool
  | .worker id _ => keepsRate domain delay crawler.shared.limiter (crawler.workers id)
  | _ => true

end Requests

/-! ### Steps -/

section Steps

variable {Url : Type} [DecidableEq Url] {crates : Crates Url} {domain : String}
  {shared next : Shared Url} {worker after : Worker Url} {input : Input Url}
  {delay : Duration} {start : Instant}

omit [DecidableEq Url] in
theorem Worker.Timed.later {now soon : Instant} (timed : worker.Timed crates start now)
    (passed : now ≤ soon) : worker.Timed crates start soon := by
  cases worker with
  | acquiring url other stamp => exact ⟨timed.1, timed.2.1, timed.2.2.trans passed⟩
  | working url ticket task =>
    cases task with
    | sleeping other stamp =>
      have stamped : stamp ≤ now := timed
      exact stamped.trans passed
    | _ => trivial
  | _ => trivial

omit [DecidableEq Url] in
theorem granted_grant (shared : Shared Url) (other : String) (stamp : Instant) :
    (shared.grant other stamp).journal.granted domain =
      shared.journal.granted domain + if other = domain then 1 else 0 := by
  rw [Journal.granted, Shared.grant, List.countP_append, List.countP_singleton]
  simp only [decide_eq_true_eq]
  rfl

theorem TaskMoved.grants_eq {url : Url} {ticket : Nat} {task : Task Url}
    (moved : TaskMoved crates url ticket shared task input next worker) :
    next.journal.grants = shared.journal.grants := by
  cases moved <;> rfl

theorem TaskMoved.timed {url : Url} {ticket : Nat} {task : Task Url}
    (moved : TaskMoved crates url ticket shared task input next worker) :
    worker.Timed crates start shared.clock := by
  cases moved with
  | awaited => exact le_rfl (a := shared.clock)
  | domainSaved goesOn | sitemapDelayAsked _ goesOn | delayAsked _ goesOn | pageSaved _ goesOn =>
    rcases goesOn with rfl | ⟨_, rfl⟩ <;> trivial
  | pageFetched _ goesOn => rcases goesOn with rfl | rfl <;> trivial
  | pushFailed _ goesOn => rcases goesOn with ⟨_, rfl⟩ | rfl <;> trivial
  | _ => trivial

/-- A task keeps the rate: it only learns a delay or waits for a sitemap. -/
theorem TaskMoved.metered {url : Url} {ticket : Nat} {task : Task Url}
    (moved : TaskMoved crates url ticket shared task input next worker)
    (timed : (Worker.working url ticket task).Timed crates start shared.clock)
    (metered : shared.limiter.Metered domain delay start shared.clock
      (shared.journal.granted domain))
    (keeps : keepsRate domain delay shared.limiter (.working url ticket task) = true) :
    next.limiter.Metered domain delay start shared.clock (next.journal.granted domain) := by
  cases moved with
  | @delayUpdated data newDelay converts =>
    refine metered.updateDelay fun same => ?_
    simpa [keepsRate, same, converts] using keeps
  | @slept other stamp =>
    have stamped : stamp ≤ shared.clock := timed
    refine metered.setEntry ?_
    rintro rfl
    refine ⟨(metered.entry stamped).1, stamped, fun state entered => ?_⟩
    simpa [keepsRate, entered] using keeps
  | _ => exact metered

/-- A worker keeps the rate: a grant of the domain comes its delay after the last. -/
theorem WorkerMoved.metered (moved : WorkerMoved crates shared worker input next after)
    (since : start ≤ shared.clock) (timed : worker.Timed crates start shared.clock)
    (metered : shared.limiter.Metered domain delay start shared.clock
      (shared.journal.granted domain))
    (keeps : keepsRate domain delay shared.limiter worker = true) :
    after.Timed crates start shared.clock ∧
      next.limiter.Metered domain delay start shared.clock (next.journal.granted domain) := by
  cases moved with
  | stamped has => exact ⟨⟨has, since, le_rfl⟩, metered⟩
  | @granted url other stamp passed =>
    obtain ⟨_, early, past⟩ := timed
    refine ⟨trivial, ?_⟩
    rw [granted_grant]
    by_cases same : other = domain
    · subst same
      rw [if_pos rfl]
      exact metered.granted past early passed
    · rw [if_neg same]
      exact metered.setEntry fun equal => absurd equal same
  | refused =>
    obtain ⟨_, _, past⟩ := timed
    exact ⟨trivial, metered.refused _ past⟩
  | task moved => exact ⟨moved.timed, moved.metered timed metered keeps⟩
  | looped goesOn => rcases goesOn with rfl | rfl <;> exact ⟨trivial, metered⟩
  | released owed =>
    rcases owed with ⟨_, rfl⟩ | ⟨_, rfl⟩ | ⟨_, _, rfl | rfl⟩ <;> exact ⟨trivial, metered⟩
  | _ => exact ⟨trivial, metered⟩

/-- What a worker goes to the network for it was granted. -/
theorem WorkerMoved.paysGrant (moved : WorkerMoved crates shared worker input next after)
    (timed : worker.Timed crates start shared.clock) :
    worker.requests crates domain input + shared.journal.granted domain +
        after.ungiven crates domain ≤
      worker.ungiven crates domain + next.journal.granted domain := by
  cases moved with
  | @granted url other stamp _ =>
    obtain ⟨host, _, _⟩ := timed
    rw [granted_grant]
    simp only [Worker.requests, Worker.ungiven, host, Option.some.injEq, Task.requestsLeft]
    omega
  | @task url ticket task _ _ _ moved =>
    have grants : next.journal.granted domain = shared.journal.granted domain := by
      rw [Journal.granted, moved.grants_eq]
      rfl
    rw [grants]
    rcases moved.requests with ⟨left, rfl, fewer⟩ | ⟨⟨ends, rfl⟩, fewer⟩
    · by_cases hosted : crates.url.domain url = some domain
      · simp only [Worker.requests, Worker.ungiven, if_pos hosted]
        omega
      · simp only [Worker.requests, Worker.ungiven, if_neg hosted]
        omega
    · by_cases hosted : crates.url.domain url = some domain
      · simp only [Worker.requests, Worker.ungiven, if_pos hosted]
        omega
      · simp only [Worker.requests, Worker.ungiven, if_neg hosted]
        omega
  | looped goesOn =>
    rcases goesOn with rfl | rfl <;> simp [Worker.requests, Worker.ungiven]
  | released owed =>
    rcases owed with ⟨rfl, rfl⟩ | ⟨rfl, rfl⟩ | ⟨_, rfl, rfl | rfl⟩ <;>
      simp [Worker.requests, Worker.ungiven, Shared.release]
  | _ => simp [Worker.requests, Worker.ungiven, Shared.dequeue]

variable {n : Nat} {crawler later : Crawler Url n} {action : CrawlerAction Url n}

/-- Every step of the crawl keeps the rate. -/
theorem CrawlerMoved.metered (moved : CrawlerMoved crates crawler action later)
    (metered : crawler.Metered crates domain delay start)
    (keeps : keepsRates domain delay crawler action = true) :
    later.Metered crates domain delay start := by
  obtain ⟨since, limiter, workers⟩ := metered
  cases moved with
  | @worker id input shared worker moved =>
    obtain ⟨timed, metered⟩ := moved.metered since (workers id) limiter keeps
    rw [← moved.clock_eq] at since timed metered workers
    exact ⟨since, metered, Transition.forall_update workers timed⟩
  | service _ | monitored _ _ | interrupted => exact ⟨since, limiter, workers⟩
  | ticked elapsed =>
    have passed : crawler.shared.clock ≤ crawler.shared.clock + (elapsed : Int) :=
      le_add_of_nonneg_right (Int.natCast_nonneg _)
    exact ⟨since.trans passed, limiter.later passed, fun id => (workers id).later passed⟩

/-- What a step goes to the network for is paid by the grants that no task has used. -/
theorem CrawlerMoved.paysGrant (moved : CrawlerMoved crates crawler action later)
    (metered : crawler.Metered crates domain delay start) :
    requestsOf crates domain action crawler +
        ((∑ id, (later.workers id).ungiven crates domain) +
          crawler.shared.journal.granted domain) ≤
      (∑ id, (crawler.workers id).ungiven crates domain) +
        later.shared.journal.granted domain := by
  cases moved with
  | @worker id input shared worker moved =>
    have pool := Transition.add_sum_update_le crawler.workers id worker
      (fun worker => worker.ungiven crates domain) (moved.paysGrant (metered.workers id))
    rw [add_right_comm, add_assoc] at pool
    exact pool
  | service _ | monitored _ _ | interrupted | ticked _ => exact (zero_add _).le

end Steps

/-! ### Runs -/

section Runs

variable {Url : Type} [DecidableEq Url] {crates : Crates Url} {domain : String} {delay : Duration}
  {n : Nat}

omit [DecidableEq Url] in
theorem metered_begin (atMost : delay ≤ 10 ^ 9) (clock : Instant)
    (started : StorageService Url × Nat) :
    (Crawler.begin clock started : Crawler Url n).Metered crates domain delay clock :=
  ⟨le_rfl, DomainRateLimiter.Metered.new atMost, fun _ => trivial⟩

/-- A crawl goes to the network for a domain once at its start and then no more often than the delay
has passed since, whatever the workers do in which order, when the delay is not above that of a
domain the limiter does not know, no shorter one is learned, and no wait is overtaken. -/
theorem requests_rated {limit : Option (BitVec 64)} {clock : Instant}
    {started : StorageService Url × Nat} {actions : List (CrawlerAction Url n)}
    {crawler : Crawler Url n} (atMost : delay ≤ 10 ^ 9)
    (ran : Transition.run (crawlerStep crates limit) actions (Crawler.begin clock started) =
      some crawler)
    (permits : Transition.Permits (crawlerStep crates limit)
      (fun crawler action => keepsRates domain delay crawler action = true) actions
      (Crawler.begin clock started)) :
    Transition.spent (crawlerStep crates limit) (requestsOf crates domain) actions
        (Crawler.begin clock started) * delay ≤
      delay + (crawler.shared.clock - clock).toNat := by
  have begins : (Crawler.begin clock started : Crawler Url n).Metered crates domain delay clock :=
    metered_begin atMost clock started
  have kept : crawler.Metered crates domain delay clock :=
    (Transition.reachesWith_of_run ran permits).invariant begins
      fun _ _ _ metered keeps moved => (crawlerStep_moved crates moved).metered metered keeps
  have paid := Transition.spent_add_credit_le
    (fun (before : Crawler Url n) action after metered keeps moved =>
      ⟨(crawlerStep_moved crates moved).metered metered keeps,
        (crawlerStep_moved crates moved).paysGrant metered⟩) begins ran permits
  have nothing : (∑ id, ((Crawler.begin clock started : Crawler Url n).workers id).ungiven crates
      domain) = 0 := Finset.sum_const_zero
  have none : (Crawler.begin clock started : Crawler Url n).shared.journal.granted domain = 0 := rfl
  rw [nothing, none, add_zero, zero_add] at paid
  calc Transition.spent (crawlerStep crates limit) (requestsOf crates domain) actions
        (Crawler.begin clock started) * delay
      ≤ crawler.shared.journal.granted domain * delay := by
        gcongr
        exact (Nat.le_add_right _ _).trans paid
    _ ≤ delay + (crawler.shared.clock - clock).toNat := kept.limiter.count_le kept.since

end Runs

/-! ### The sample web -/

/-- Two workers ask for a page of the first site each, within a second. -/
theorem requests_rated_sample : ∃ started,
    sampleStart CrawlerDb.sampleSlow "https://a.example/ https://a.example/about" = some started ∧
      ∃ crawler : Crawler SampleUrl 2,
        Transition.run (crawlerStep sampleCrates none) (sampleTwoPages (10 ^ 9))
          (Crawler.begin 0 started) = some crawler ∧
        Transition.spent (crawlerStep sampleCrates none) (requestsOf sampleCrates "a.example")
          (sampleTwoPages (10 ^ 9)) (Crawler.begin 0 started : Crawler SampleUrl 2) * 10 ^ 9 ≤
            10 ^ 9 + (crawler.shared.clock - 0).toNat := by
  obtain ⟨started, starts, crawler, ran⟩ : ∃ started,
      sampleStart CrawlerDb.sampleSlow "https://a.example/ https://a.example/about" =
        some started ∧
        ∃ crawler : Crawler SampleUrl 2, Transition.runWith (crawlerStep sampleCrates none)
          (fun crawler action => keepsRates "a.example" (10 ^ 9) crawler action = true)
          (sampleTwoPages (10 ^ 9)) (Crawler.begin 0 started) = some crawler := ⟨_, rfl, _, rfl⟩
  exact ⟨started, starts, crawler, Transition.run_of_runWith ran,
    requests_rated le_rfl (Transition.run_of_runWith ran) (Transition.permits_of_runWith ran)⟩

/-- They make two requests. -/
example : (sampleStart CrawlerDb.sampleSlow "https://a.example/ https://a.example/about").map
    (fun started => Transition.spent (crawlerStep sampleCrates none)
      (requestsOf sampleCrates "a.example") (sampleTwoPages (10 ^ 9))
      (Crawler.begin 0 started : Crawler SampleUrl 2)) = some 2 := by
  decide +kernel

end PoliteCrawler
