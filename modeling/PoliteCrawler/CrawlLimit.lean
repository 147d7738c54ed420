/-
This file bounds the pages a crawl publishes once its limit is reached.

The workers count the pages and do not look at the limit. The monitor looks at
the count once a second and cancels the crawl, and a worker learns of that at the
top of its loop. So a worker can take any number of pages while the count is past
the limit and the monitor has not looked. After the check that finds the limit
reached, a worker publishes at most the page it has in hand and counts at most the
page it has published, which bounds the run by what the check has found counted.
-/

import PoliteCrawler.TaskConservation

namespace PoliteCrawler

variable {Url : Type} {n : Nat}

/-! ### Counted crawls -/

namespace Worker

/-- The pages the worker has published and not yet counted. -/
def uncountedPages : Worker Url → Nat
  | .working _ _ (.countingPage _) => 1
  | _ => 0

/-- The pages the worker may publish before it comes to the top of its loop. -/
def pagesInHand : Worker Url → Nat
  | .popping | .arrived _ | .acquiring _ _ _ => 1
  | .working _ _ .checking | .working _ _ (.askingDelay _ _) => 1
  | .working _ _ (.fetchingPage _) | .working _ _ (.savingPage _ _) => 1
  | _ => 0

/-- The page events the worker publishes with the input without learning of it; it never counts
them. -/
def unansweredPages : Worker Url → Input Url → Nat
  | .working _ _ (.savingPage _ _), .redis .lost => 1
  | _, _ => 0

theorem uncounted_add_inHand_le (worker : Worker Url) :
    worker.uncountedPages + worker.pagesInHand ≤ 1 := by
  unfold uncountedPages pagesInHand
  split <;> split <;> simp_all

end Worker

/-- A crawl beside the number of pages its workers have counted, and the number of page events they
have published and never counted because the reply was lost. -/
structure CountedCrawl (Url : Type) (n : Nat) where
  crawler : Crawler Url n
  counted : Nat
  unanswered : Nat

def CountedCrawl.begin (clock : Instant) (started : StorageService Url × Nat) :
    CountedCrawl Url n where
  crawler := Crawler.begin clock started
  counted := 0
  unanswered := 0

/-- The pages an action counts. -/
def Crawler.countedBy (crawler : Crawler Url n) : CrawlerAction Url n → Nat
  | .worker id _ => (crawler.workers id).uncountedPages
  | _ => 0

def Crawler.unansweredBy (crawler : Crawler Url n) : CrawlerAction Url n → Nat
  | .worker id input => (crawler.workers id).unansweredPages input
  | _ => 0

/-- The number of page events published in the run. -/
def CountedCrawl.published (crawl : CountedCrawl Url n) : Nat :=
  crawl.crawler.shared.journal.published.length

section Steps

variable [DecidableEq Url] (crates : Crates Url)

def countedStep (limit : Option (BitVec 64)) (action : CrawlerAction Url n)
    (crawl : CountedCrawl Url n) : Option (CountedCrawl Url n) :=
  (crawlerStep crates limit action crawl.crawler).map fun crawler => {
    crawler
    counted := crawl.counted + crawl.crawler.countedBy action
    unanswered := crawl.unanswered + crawl.crawler.unansweredBy action }

variable {crates} {shared next : Shared Url} {worker after : Worker Url} {input : Input Url}

/-! ### The steps of a worker -/

/-- A page event that is published is counted next, or its reply is lost. -/
theorem workerStep_published
    (stepped : workerStep crates input shared worker = some (next, after)) :
    next.journal.published.length =
      shared.journal.published.length + worker.unansweredPages input + after.uncountedPages := by
  cases workerStep_moved stepped with
  | looped goesOn => rcases goesOn with rfl | rfl <;> rfl
  | released owed =>
    rcases owed with ⟨rfl, rfl⟩ | ⟨rfl, rfl⟩ | ⟨ends, rfl, rfl | rfl⟩ <;> rfl
  | task moved =>
    cases moved with
    | domainSaved goesOn => rcases goesOn with rfl | ⟨_, rfl⟩ <;> rfl
    | sitemapDelayAsked _ goesOn => rcases goesOn with rfl | ⟨_, rfl⟩ <;> rfl
    | delayAsked _ goesOn => rcases goesOn with rfl | ⟨_, rfl⟩ <;> rfl
    | pageFetched _ goesOn => rcases goesOn with rfl | rfl <;> rfl
    | @pageSaved _ _ call _ performed _ =>
      cases call with
      | failed => exact absurd rfl performed
      | answered => cases stepped; rfl
      | lost => cases stepped; rfl
    | pushFailed _ goesOn => rcases goesOn with ⟨_, rfl⟩ | rfl <;> rfl
    | _ => rfl
  | _ => rfl

theorem workerStep_pagesCrawled
    (stepped : workerStep crates input shared worker = some (next, after)) :
    next.pagesCrawled = shared.pagesCrawled + BitVec.ofNat 64 worker.uncountedPages := by
  cases workerStep_moved stepped with
  | released owed =>
    rcases owed with ⟨rfl, rfl⟩ | ⟨rfl, rfl⟩ | ⟨ends, rfl, rfl | rfl⟩ <;>
      exact (BitVec.add_zero _).symm
  | task moved =>
    cases moved with
    | pageCounted => rfl
    | _ => exact (BitVec.add_zero _).symm
  | _ => exact (BitVec.add_zero _).symm

/-- Once the crawl is cancelled, a worker publishes only the page it has in hand. -/
theorem workerStep_pagesInHand (cancelled : shared.cancelled = true)
    (stepped : workerStep crates input shared worker = some (next, after)) :
    next.journal.published.length + after.pagesInHand ≤
      shared.journal.published.length + worker.pagesInHand := by
  cases workerStep_moved stepped with
  | looped =>
    rw [workerStep, if_pos cancelled] at stepped
    cases stepped
    exact le_rfl
  | released owed =>
    rcases owed with ⟨rfl, rfl⟩ | ⟨rfl, rfl⟩ | ⟨ends, rfl, rfl | rfl⟩ <;> exact le_rfl
  | task moved =>
    cases moved with
    | domainSaved goesOn => rcases goesOn with rfl | ⟨_, rfl⟩ <;> exact le_rfl
    | sitemapDelayAsked _ goesOn => rcases goesOn with rfl | ⟨_, rfl⟩ <;> exact le_rfl
    | delayAsked _ goesOn =>
      rcases goesOn with rfl | ⟨_, rfl⟩
      · exact le_rfl
      · exact Nat.le_succ _
    | pageFetched _ goesOn =>
      rcases goesOn with rfl | rfl
      · exact le_rfl
      · exact Nat.le_succ _
    | pageSaved _ goesOn => rcases goesOn with rfl | ⟨_, rfl⟩ <;> exact le_rfl
    | pushFailed _ goesOn => rcases goesOn with ⟨_, rfl⟩ | rfl <;> exact le_rfl
    | _ => first | exact le_rfl | exact Nat.le_succ _
  | _ => first | exact le_rfl | exact Nat.le_succ _

/-! ### The steps of a crawl -/

/-- The books of the pages: what is published is counted, or about to be, or its reply was lost. -/
structure CountedCrawl.Booked (crawl : CountedCrawl Url n) : Prop where
  published : crawl.published =
    crawl.counted + crawl.unanswered + ∑ id, (crawl.crawler.workers id).uncountedPages
  pagesCrawled : crawl.crawler.shared.pagesCrawled = BitVec.ofNat 64 crawl.counted

/-- The pages that are published or may still be, once the crawl is cancelled. -/
def CountedCrawl.ahead (crawl : CountedCrawl Url n) : Nat :=
  crawl.published + ∑ id, (crawl.crawler.workers id).pagesInHand

variable {limit : Option (BitVec 64)} {action : CrawlerAction Url n}
  {crawl moved : CountedCrawl Url n}

/-- A step is one of a worker, or leaves the pages and the workers as they are. -/
theorem countedStep_cases (stepped : countedStep crates limit action crawl = some moved) :
    (∃ id input shared worker, action = .worker id input ∧
      workerStep crates input crawl.crawler.shared (crawl.crawler.workers id) =
        some (shared, worker) ∧
      moved = {
        crawler := { crawl.crawler with
          shared, workers := Function.update crawl.crawler.workers id worker }
        counted := crawl.counted + (crawl.crawler.workers id).uncountedPages
        unanswered := crawl.unanswered + (crawl.crawler.workers id).unansweredPages input }) ∨
    moved.crawler.workers = crawl.crawler.workers ∧ moved.counted = crawl.counted ∧
      moved.unanswered = crawl.unanswered ∧ moved.published = crawl.published ∧
      moved.crawler.shared.pagesCrawled = crawl.crawler.shared.pagesCrawled := by
  obtain ⟨crawler, took, rfl⟩ := Option.map_eq_some_iff.mp stepped
  cases action with
  | worker id input =>
    obtain ⟨⟨shared, worker⟩, worked, rfl⟩ := Option.map_eq_some_iff.mp took
    exact Or.inl ⟨id, input, shared, worker, rfl, worked, rfl⟩
  | _ =>
    refine Or.inr ?_
    cases crawlerStep_moved crates took
    exact ⟨rfl, rfl, rfl, rfl, rfl⟩

theorem CountedCrawl.Booked.step (booked : crawl.Booked)
    (stepped : countedStep crates limit action crawl = some moved) : moved.Booked := by
  rcases countedStep_cases stepped with ⟨id, input, shared, worker, rfl, worked, rfl⟩ |
    ⟨workers, counted, unanswered, published, pagesCrawled⟩
  · constructor
    · have before := booked.published
      have step := workerStep_published worked
      have moves := Transition.sum_update_add crawl.crawler.workers id worker Worker.uncountedPages
      unfold CountedCrawl.published at before ⊢
      dsimp only
      omega
    · have before := booked.pagesCrawled
      have step := workerStep_pagesCrawled worked
      dsimp only
      rw [step, before, BitVec.ofNat_add]
  · exact ⟨by rw [published, counted, unanswered, workers, booked.published],
      by rw [pagesCrawled, counted, booked.pagesCrawled]⟩

theorem CountedCrawl.ahead_step (cancelled : crawl.crawler.shared.cancelled = true)
    (stepped : countedStep crates limit action crawl = some moved) :
    moved.ahead ≤ crawl.ahead := by
  rcases countedStep_cases stepped with ⟨id, input, shared, worker, rfl, worked, rfl⟩ |
    ⟨workers, _, _, published, _⟩
  · have step := workerStep_pagesInHand cancelled worked
    have moves := Transition.sum_update_add crawl.crawler.workers id worker Worker.pagesInHand
    unfold CountedCrawl.ahead CountedCrawl.published
    dsimp only
    omega
  · rw [CountedCrawl.ahead, CountedCrawl.ahead, published, workers]

theorem countedStep_cancelled (stepped : countedStep crates limit action crawl = some moved)
    (cancelled : crawl.crawler.shared.cancelled = true) :
    moved.crawler.shared.cancelled = true := by
  obtain ⟨crawler, took, rfl⟩ := Option.map_eq_some_iff.mp stepped
  exact crawlerStep_cancelled took cancelled

/-- A check that finds the limit reached leaves the crawl cancelled. -/
theorem monitor_cancels {limit : BitVec 64} (found : limit ≤ crawl.crawler.shared.pagesCrawled)
    (checked : countedStep crates (some limit) .monitor crawl = some moved) :
    moved.crawler.shared.cancelled = true := by
  obtain ⟨crawler, took, rfl⟩ := Option.map_eq_some_iff.mp checked
  rw [crawlerStep] at took
  split at took
  · cases took
    unfold monitorStep
    split
    · rename_i cancelled
      exact cancelled
    · have reaches : (some limit).any (fun limit => limit ≤ crawl.crawler.shared.pagesCrawled) =
          true := decide_eq_true found
      rw [if_pos (Or.inr reaches)]
  · cases took

/-! ### Runs -/

omit [DecidableEq Url] in
theorem CountedCrawl.Booked.begin (clock : Instant) (started : StorageService Url × Nat) :
    (CountedCrawl.begin clock started : CountedCrawl Url n).Booked where
  published := by
    have none : ∑ _ : Fin n, (Worker.atLoop : Worker Url).uncountedPages = 0 :=
      Finset.sum_const_zero
    exact (congrArg (0 + 0 + ·) none).symm
  pagesCrawled := rfl

omit [DecidableEq Url] in
/-- A worker has at most one page, in hand or to be counted. -/
theorem CountedCrawl.Booked.ahead_le (booked : crawl.Booked) :
    crawl.ahead ≤ crawl.counted + crawl.unanswered + n := by
  have hands : (∑ id, (crawl.crawler.workers id).uncountedPages) +
      ∑ id, (crawl.crawler.workers id).pagesInHand ≤ n := by
    rw [← Finset.sum_add_distrib]
    calc
      _ ≤ ∑ _ : Fin n, 1 :=
        Finset.sum_le_sum fun id _ => (crawl.crawler.workers id).uncounted_add_inHand_le
      _ = n := by simp
  rw [CountedCrawl.ahead, booked.published, Nat.add_assoc _ (∑ id, _)]
  exact Nat.add_le_add_left hands _

/-- Cancelled, and with no more pages ahead than a bound. -/
structure CountedCrawl.Stopping (bound : Nat) (crawl : CountedCrawl Url n) : Prop where
  cancelled : crawl.crawler.shared.cancelled = true
  ahead : crawl.ahead ≤ bound

/-- In a run in which the monitor has found the limit reached, the page events published are at most
those counted at its check, one for each worker, and those whose reply was lost before it. -/
theorem published_le_of_limit {limit : BitVec 64} {clock : Instant}
    {started : StorageService Url × Nat} {crawl stopped final : CountedCrawl Url n}
    (reached : Transition.Reaches (countedStep crates (some limit))
      (CountedCrawl.begin clock started) crawl)
    (found : limit ≤ crawl.crawler.shared.pagesCrawled)
    (checked : countedStep crates (some limit) .monitor crawl = some stopped)
    (later : Transition.Reaches (countedStep crates (some limit)) stopped final) :
    crawl.crawler.shared.pagesCrawled = BitVec.ofNat 64 crawl.counted ∧
      final.published ≤ crawl.counted + crawl.unanswered + n := by
  have booked : crawl.Booked := reached.invariant (.begin clock started)
    fun _ _ _ booked _ stepped => booked.step stepped
  have ahead : stopped.ahead = crawl.ahead := by
    rcases countedStep_cases checked with ⟨_, _, _, _, other, _⟩ | ⟨workers, _, _, published, _⟩
    · cases other
    · rw [CountedCrawl.ahead, CountedCrawl.ahead, published, workers]
  have stops : stopped.Stopping crawl.ahead := ⟨monitor_cancels found checked, ahead.le⟩
  have stopping : final.Stopping crawl.ahead := later.invariant stops
    fun _ _ _ stopping _ stepped => ⟨countedStep_cancelled stepped stopping.cancelled,
      (CountedCrawl.ahead_step stopping.cancelled stepped).trans stopping.ahead⟩
  refine ⟨booked.pagesCrawled, ?_⟩
  calc final.published
      ≤ final.ahead := Nat.le_add_right _ _
    _ ≤ crawl.ahead := stopping.ahead
    _ ≤ crawl.counted + crawl.unanswered + n := booked.ahead_le

end Steps

/-! ### The sample web -/

/-- A database that knows both sites. -/
def CrawlerDb.sampleBoth : CrawlerDb :=
  CrawlerDb.sample.upsertDomain {
    domainString := "b.example"
    robots := none
    delay := 0x3f800000#32 }

/-- The worker finds nothing new on the home pages, and is done with them. -/
def sampleHomePages : List (Input SampleUrl) :=
  sampleTake ++ samplePageTask ++ [.rpc DbFaults.none .answered, .proceed, .proceed] ++
    sampleTake ++ samplePageTask ++ [.proceed, .proceed]

/-- One worker publishes the home pages of both sites and, a second later, another page of the
first site. -/
def sampleThreePages : List (CrawlerAction SampleUrl 1) :=
  sampleHomePages.map (.worker (Fin.last 0)) ++ [.tick (10 ^ 9)] ++
    (sampleTake ++ samplePageTask).map (.worker (Fin.last 0))

def sampleThreeSeeds : String :=
  "https://a.example/ https://b.example/ https://a.example/about"

/-- The monitor finds the limit of one page reached after the first page, and the worker goes on to
its loop. -/
theorem published_le_of_limit_sample : ∃ started,
    sampleStart CrawlerDb.sampleBoth sampleThreeSeeds = some started ∧
      ∃ crawl stopped final : CountedCrawl SampleUrl 1,
        Transition.run (countedStep sampleCrates (some 1))
          ((sampleTake ++ samplePageTask).map (.worker 0)) (CountedCrawl.begin 0 started) =
            some crawl ∧
        countedStep sampleCrates (some 1) .monitor crawl = some stopped ∧
        Transition.run (countedStep sampleCrates (some 1))
          [.worker 0 (.rpc DbFaults.none .answered), .worker 0 .proceed, .worker 0 .proceed] stopped =
            some final ∧
        final.published ≤ crawl.counted + crawl.unanswered + 1 := by
  obtain ⟨started, starts, crawl, ran, stopped, checked, final, went⟩ : ∃ started,
      sampleStart CrawlerDb.sampleBoth sampleThreeSeeds = some started ∧
      ∃ crawl : CountedCrawl SampleUrl 1,
        Transition.run (countedStep sampleCrates (some 1))
          ((sampleTake ++ samplePageTask).map (.worker 0)) (CountedCrawl.begin 0 started) =
            some crawl ∧
      ∃ stopped, countedStep sampleCrates (some 1) .monitor crawl = some stopped ∧
      ∃ final, Transition.run (countedStep sampleCrates (some 1))
          [.worker 0 (.rpc DbFaults.none .answered), .worker 0 .proceed, .worker 0 .proceed] stopped =
            some final := ⟨_, rfl, _, rfl, _, rfl, _, rfl⟩
  have counts : ((sampleStart CrawlerDb.sampleBoth sampleThreeSeeds).bind fun started =>
      (Transition.run (countedStep sampleCrates (some 1))
        ((sampleTake ++ samplePageTask).map (.worker 0))
        (CountedCrawl.begin 0 started : CountedCrawl SampleUrl 1)).map fun crawl =>
          crawl.crawler.shared.pagesCrawled) = some 1#64 := by decide +kernel
  rw [starts, Option.bind_some, ran, Option.map_some, Option.some.injEq] at counts
  have found : (1 : BitVec 64) ≤ crawl.crawler.shared.pagesCrawled := by
    rw [counts]
    decide
  exact ⟨started, starts, crawl, stopped, final, ran, checked, went,
    (published_le_of_limit (Transition.reaches_of_run ran) found checked
      (Transition.reaches_of_run went)).2⟩

/-- With a limit of one page and one worker, three pages are published before the monitor looks. -/
theorem limit_overrun : ∃ started,
    sampleStart CrawlerDb.sampleBoth sampleThreeSeeds = some started ∧
      ∃ crawler : Crawler SampleUrl 1,
        Transition.Reaches (crawlerStep sampleCrates (some 1)) (Crawler.begin 0 started) crawler ∧
        ¬ crawler.shared.journal.published.length ≤ 1 + 1 := by
  obtain ⟨started, starts, crawler, ran⟩ : ∃ started,
      sampleStart CrawlerDb.sampleBoth sampleThreeSeeds = some started ∧
        ∃ crawler : Crawler SampleUrl 1, Transition.run (crawlerStep sampleCrates (some 1))
          sampleThreePages (Crawler.begin 0 started) = some crawler := ⟨_, rfl, _, rfl⟩
  have pages : ((sampleStart CrawlerDb.sampleBoth sampleThreeSeeds).bind fun started =>
      (Transition.run (crawlerStep sampleCrates (some 1)) sampleThreePages
        (Crawler.begin 0 started : Crawler SampleUrl 1)).map fun crawler =>
          crawler.shared.journal.published.length) = some 3 := by decide +kernel
  rw [starts, Option.bind_some, ran, Option.map_some, Option.some.injEq] at pages
  refine ⟨started, starts, crawler, Transition.reaches_of_run ran, ?_⟩
  rw [pages]
  decide

end PoliteCrawler
