/-
This file follows the URLs of the task queue. A URL that was ever pushed is
waiting, or pursued by a worker, or at an end: downloaded, disallowed, or without
a domain.

A run keeps this as long as no call fails and every URL that is checked is of a
known domain. The check of an unknown domain leads a worker to fetch and publish
its robots.txt and to drop the URL.
-/

import PoliteCrawler.CrawlerMoves

namespace PoliteCrawler

variable {Url : Type}

/-! ### The queue of a step -/

namespace TaskQueue

/-- Only pushes lie between the queues. -/
def Grows (before after : TaskQueue) : Prop := ∃ urls, after = before.pushBulk urls

theorem Grows.refl (queue : TaskQueue) : queue.Grows queue :=
  ⟨[], by rw [pushBulk, List.append_nil, List.append_nil]⟩

theorem Grows.waiting {before after : TaskQueue} (grows : before.Grows after) {text : String}
    (member : text ∈ before.waiting) : text ∈ after.waiting := by
  obtain ⟨urls, rfl⟩ := grows
  exact List.mem_append_left urls member

theorem Grows.pushed {before after : TaskQueue} (grows : before.Grows after) {text : String}
    (member : text ∈ after.pushed) : text ∈ before.pushed ∨ text ∈ after.waiting := by
  obtain ⟨urls, rfl⟩ := grows
  rcases List.mem_append.mp member with old | fresh
  · exact Or.inl old
  · exact Or.inr (List.mem_append_right before.waiting fresh)

end TaskQueue

theorem pushTasks_grows (service : StorageService Url) (urls : List String) (call : Call) :
    service.queue.Grows (pushTasks service urls call).queue := by
  unfold pushTasks
  split
  · exact .refl _
  · exact ⟨urls, rfl⟩

theorem publishEvent_queue (crates : Crates Url) (service : StorageService Url)
    (event : ParsedData) (call : Call) :
    (publishEvent crates service event call).queue = service.queue := by
  unfold publishEvent
  split <;> rfl

section Steps

variable {crates : Crates Url}

theorem ServiceMoved.queueGrows {service next : StorageService Url} {action : ServiceAction Url}
    (moved : ServiceMoved crates service action next) : service.queue.Grows next.queue := by
  cases moved with
  | @pushed _ _ _ sitemap => exact ⟨[sitemap], rfl⟩
  | _ => exact .refl _

variable [DecidableEq Url]

/-- Only the tasks that push touch the queue. -/
theorem TaskMoved.queue_eq {url : Url} {ticket : Nat} {shared next : Shared Url} {task : Task Url}
    {input : Input Url} {worker : Worker Url}
    (moved : TaskMoved crates url ticket shared task input next worker)
    (pushes : ∀ attempt filtered, task ≠ .pushing attempt filtered) :
    next.service.queue = shared.service.queue := by
  cases moved with
  | pushed => exact absurd rfl (pushes _ _)
  | pushFailed _ _ => exact absurd rfl (pushes _ _)
  | checkFailed looked _ | checkedStray looked _ | checkedUnknown looked _
  | checkedDisallowed looked | checkedSitemap looked | checkedPage looked _
  | sitemapDelayAsked looked _ | delayAsked looked _ | linkInserted looked _ =>
    exact looked.state.2
  | domainSaved _ => exact publishEvent_queue _ _ _ _
  | pageSaved _ _ => exact publishEvent_queue _ _ _ _
  | _ => rfl

theorem TaskMoved.queueGrows {url : Url} {ticket : Nat} {shared next : Shared Url}
    {task : Task Url} {input : Input Url} {worker : Worker Url}
    (moved : TaskMoved crates url ticket shared task input next worker) :
    shared.service.queue.Grows next.service.queue := by
  cases task with
  | pushing attempt filtered => cases moved <;> exact pushTasks_grows _ _ _
  | _ => exact moved.queue_eq nofun ▸ .refl _

end Steps

/-! ### Where a URL is -/

/-- The URL that the worker has taken from the queue and is not done with. -/
def Worker.held : Worker Url → Option Url
  | .arrived url | .acquiring url _ _ | .requeueing url | .working url _ _ => some url
  | _ => none

/-- The URL of the task has not come to an end, and the task goes on towards it. -/
def Task.Seeking : Task Url → Prop
  | .checking | .awaiting _ | .sleeping _ _ | .askingSitemapDelay _ | .fetchingSitemap
  | .askingDelay _ _ | .fetchingPage _ => True
  | _ => False

/-- The worker holds the URL on its way to an end or back to the queue. -/
def Worker.Pursues (worker : Worker Url) (url : Url) : Prop :=
  worker.held = some url ∧ ∀ held ticket task, worker = .working held ticket task → task.Seeking

variable (crates : Crates Url)

/-- The ends of a URL: it was downloaded, or answered as disallowed, or has no domain. -/
def Journal.Ended (journal : Journal Url) (url : Url) : Prop :=
  url ∈ journal.downloaded ∨ url ∈ journal.disallowed ∨ crates.url.domain url = none

def TaskQueue.Queued (queue : TaskQueue) (url : Url) : Prop :=
  ∃ text ∈ queue.waiting, crates.url.parse text = .ok url

def TaskQueue.WasPushed (queue : TaskQueue) (url : Url) : Prop :=
  ∃ text ∈ queue.pushed, crates.url.parse text = .ok url

/-- Every URL ever pushed is waiting, held or at an end. -/
def Crawler.NoneLost {n : Nat} (crawler : Crawler Url n) : Prop :=
  ∀ url, crawler.shared.service.queue.WasPushed crates url →
    crawler.shared.service.queue.Queued crates url ∨ (∃ id, (crawler.workers id).held = some url) ∨
      crawler.shared.journal.Ended crates url

/-! ### The runs that lose nothing -/

/-- The server answers the call the task makes. -/
def Task.served (service : StorageService Url) (url : Url) (faults : DbFaults) : Task Url → Bool
  | .checking => (service.storage.checkIfUrlAllowed crates faults url).1.isOk
  | .askingSitemapDelay domain | .askingDelay domain _ =>
    (service.storage.getDelay crates faults domain).1.isOk
  | _ => true

/-- The download the task makes succeeds. -/
def Task.downloads (web : Web Url) (url : Url) : Task Url → Bool
  | .fetchingRobots => (getDomainData crates web url defaultAgentName).isOk
  | .fetchingSitemap => (SitemapsParser.parse crates web [crates.url.asStr url]).isOk
  | .fetchingPage _ => (getPage crates web url).isOk
  | _ => true

/-- The Redis, gRPC or HTTP call of a worker step does not fail. -/
def callSucceeds (service : StorageService Url) : Worker Url → Input Url → Bool
  | _, .redis call => call = .answered
  | .working url _ task, .rpc faults call =>
    call = .answered && task.served crates service url faults
  | .working url _ task, .web web _ => task.downloads crates web url
  | _, _ => true

/-- The service has a row of the domain of a URL that is checked. -/
def checksKnown (service : StorageService Url) : Worker Url → Bool
  | .working url _ .checking => (crates.url.domain url).all fun domain =>
    (service.storage.db.domains.find? domain).isSome
  | _ => true

/-- No call of a worker fails in the step. -/
def noFailure {n : Nat} (crawler : Crawler Url n) : CrawlerAction Url n → Bool
  | .worker id input => callSucceeds crates crawler.shared.service (crawler.workers id) input
  | _ => true

/-- The step checks no URL of an unknown domain. -/
def knownDomains {n : Nat} (crawler : Crawler Url n) : CrawlerAction Url n → Bool
  | .worker id _ => checksKnown crates crawler.shared.service (crawler.workers id)
  | _ => true

/-! ### Steps -/

section Kept

variable [DecidableEq Url] {crates} {shared next : Shared Url} {worker after : Worker Url}
  {input : Input Url}

theorem TaskMoved.journal {url : Url} {ticket : Nat} {task : Task Url}
    (moved : TaskMoved crates url ticket shared task input next worker) :
    shared.journal.downloaded ⊆ next.journal.downloaded ∧
      shared.journal.disallowed ⊆ next.journal.disallowed := by
  cases moved with
  | checkedDisallowed _ => exact ⟨List.Subset.refl _, List.subset_cons_self _ _⟩
  | sitemapFetched _ | sitemapFailed | pageFetched _ _ | pageFailed =>
    exact ⟨List.subset_cons_self _ _, List.Subset.refl _⟩
  | _ => exact ⟨List.Subset.refl _, List.Subset.refl _⟩

/-- An end is an end. -/
theorem WorkerMoved.ended (moved : WorkerMoved crates shared worker input next after) {url : Url}
    (ended : shared.journal.Ended crates url) : next.journal.Ended crates url := by
  cases moved with
  | task moved =>
    obtain ⟨downloaded, disallowed⟩ := moved.journal
    exact ended.imp (fun member => downloaded member)
      (Or.imp_left fun member => disallowed member)
  | _ => exact ended

omit [DecidableEq Url] in
/-- A call that succeeds has an answer that is no error. -/
theorem not_failed_of_callSucceeds {service : StorageService Url} {url : Url} {ticket : Nat}
    {task : Task Url} {faults : DbFaults} {call : Call} {Value : Type} {answer : Outcome Value}
    (succeeds : callSucceeds crates service (.working url ticket task) (.rpc faults call) = true)
    (asks : task.served crates service url faults = answer.isOk)
    (failed : call = .answered → ∃ abort, answer = .error abort) : False := by
  obtain ⟨answered, served⟩ := Bool.and_eq_true_iff.mp succeeds
  obtain ⟨abort, failed⟩ := failed (of_decide_eq_true answered)
  rw [asks, failed] at served
  cases served

/-- A task that seeks an end goes on seeking or reaches it. -/
theorem TaskMoved.seeking {url : Url} {ticket : Nat} {task : Task Url}
    (moved : TaskMoved crates url ticket shared task input next worker) (seeking : task.Seeking)
    (succeeds : callSucceeds crates shared.service (.working url ticket task) input = true)
    (known : checksKnown crates shared.service (.working url ticket task) = true) :
    worker.Pursues url ∨ next.journal.Ended crates url := by
  have goesOn : ∀ task : Task Url, task.Seeking → (Worker.working url ticket task).Pursues url := by
    intro task seeking
    refine ⟨rfl, ?_⟩
    rintro _ _ _ ⟨⟩
    exact seeking
  cases moved with
  | checkFailed _ failed => exact (not_failed_of_callSucceeds succeeds rfl failed).elim
  | checkedStray _ hasNone => exact Or.inr (Or.inr (Or.inr hasNone))
  | checkedUnknown _ unknown =>
    obtain ⟨domain, host, missing⟩ := CrawlerStorage.checkIfUrlAllowed_unknownDomain crates unknown
    rw [checksKnown, host, Option.all_some, missing] at known
    cases known
  | checkedDisallowed _ => exact Or.inr (Or.inr (Or.inl List.mem_cons_self))
  | checkedSitemap _ => exact Or.inl (goesOn _ trivial)
  | checkedPage _ _ => exact Or.inl (goesOn _ trivial)
  | awaited => exact Or.inl (goesOn _ trivial)
  | slept => exact Or.inl (goesOn _ trivial)
  | sitemapDelayAsked _ next =>
    rcases next with rfl | ⟨failed, _⟩
    · exact Or.inl (goesOn _ trivial)
    · exact (not_failed_of_callSucceeds succeeds rfl failed).elim
  | delayAsked _ next =>
    rcases next with rfl | ⟨failed, _⟩
    · exact Or.inl (goesOn _ trivial)
    · exact (not_failed_of_callSucceeds succeeds rfl failed).elim
  | sitemapFetched _ | sitemapFailed | pageFetched _ _ | pageFailed =>
    exact Or.inr (Or.inl List.mem_cons_self)
  | _ => exact seeking.elim

/-- A URL that a worker pursues stays pursued, goes back to the queue or reaches its end. -/
theorem WorkerMoved.pursued (moved : WorkerMoved crates shared worker input next after) {url : Url}
    (pursued : worker.Pursues url)
    (succeeds : callSucceeds crates shared.service worker input = true)
    (known : checksKnown crates shared.service worker = true) :
    after.Pursues url ∨ next.service.queue.Queued crates url ∨ next.journal.Ended crates url := by
  obtain ⟨held, seeking⟩ := pursued
  cases moved with
  | stamped _ => exact Or.inl ⟨held, nofun⟩
  | strayed hasNone =>
    exact Or.inr (Or.inr (Or.inr (Or.inr (Option.some.inj held ▸ hasNone))))
  | granted _ =>
    refine Or.inl ⟨held, ?_⟩
    rintro _ _ _ ⟨⟩
    trivial
  | refused => exact Or.inl ⟨held, nofun⟩
  | requeued =>
    exact Or.inr (Or.inl ⟨_, List.mem_append_right _ List.mem_cons_self,
      Option.some.inj held ▸ crates.url.parse_asStr _⟩)
  | requeueFailed failed => exact absurd (of_decide_eq_true succeeds) failed
  | released owed => rcases owed with ⟨rfl, _⟩ | ⟨rfl, _⟩ | ⟨_, rfl, _⟩ <;> cases held
  | task moved =>
    obtain rfl : _ = url := Option.some.inj held
    exact (moved.seeking (seeking _ _ _ rfl) succeeds known).imp_right Or.inr
  | _ => cases held

/-- The front of the queue goes to the worker that takes it; nothing else leaves the queue. -/
theorem WorkerMoved.queued (moved : WorkerMoved crates shared worker input next after) {url : Url}
    (queued : shared.service.queue.Queued crates url)
    (succeeds : callSucceeds crates shared.service worker input = true) :
    next.service.queue.Queued crates url ∨ after.Pursues url := by
  obtain ⟨text, member, parsed⟩ := queued
  cases moved with
  | popLost _ => cases succeeds
  | popUnparsed waiting unparsed =>
    rw [waiting] at member
    rcases List.mem_cons.mp member with rfl | member
    · rw [unparsed] at parsed
      cases parsed
    · exact Or.inl ⟨text, member, parsed⟩
  | popped waiting front =>
    rw [waiting] at member
    rcases List.mem_cons.mp member with rfl | member
    · rw [front] at parsed
      exact Or.inr ⟨congrArg some (Except.ok.inj parsed), nofun⟩
    · exact Or.inl ⟨text, member, parsed⟩
  | requeued => exact Or.inl ⟨text, (pushTasks_grows _ _ _).waiting member, parsed⟩
  | requeueFailed _ => exact Or.inl ⟨text, (pushTasks_grows _ _ _).waiting member, parsed⟩
  | task moved => exact Or.inl ⟨text, moved.queueGrows.waiting member, parsed⟩
  | _ => exact Or.inl ⟨text, member, parsed⟩

/-- What is pushed is in the queue. -/
theorem WorkerMoved.wasPushed (moved : WorkerMoved crates shared worker input next after)
    {url : Url} (pushed : next.service.queue.WasPushed crates url) :
    shared.service.queue.WasPushed crates url ∨ next.service.queue.Queued crates url := by
  obtain ⟨text, member, parsed⟩ := pushed
  have placed : text ∈ shared.service.queue.pushed ∨ text ∈ next.service.queue.waiting := by
    cases moved with
    | requeued => exact (pushTasks_grows _ _ _).pushed member
    | requeueFailed _ => exact (pushTasks_grows _ _ _).pushed member
    | task moved => exact moved.queueGrows.pushed member
    | _ => exact Or.inl member
  exact placed.imp (fun member => ⟨text, member, parsed⟩) fun member => ⟨text, member, parsed⟩

end Kept

/-! ### Runs -/

section Runs

variable [DecidableEq Url] {crates} {n : Nat}

/-- Every URL ever pushed is waiting, pursued or at an end. -/
def Crawler.Pursued (crates : Crates Url) (crawler : Crawler Url n) : Prop :=
  ∀ url, crawler.shared.service.queue.WasPushed crates url →
    crawler.shared.service.queue.Queued crates url ∨ (∃ id, (crawler.workers id).Pursues url) ∨
      crawler.shared.journal.Ended crates url

theorem CrawlerMoved.pursued {crawler next : Crawler Url n} {action : CrawlerAction Url n}
    (moved : CrawlerMoved crates crawler action next) (pursued : crawler.Pursued crates)
    (succeeds : noFailure crates crawler action = true)
    (known : knownDomains crates crawler action = true) :
    next.Pursued crates := by
  cases moved with
  | @worker id input shared worker moved =>
    intro url pushed
    have mover : ∀ other, worker.Pursues other →
        ∃ id', (Function.update crawler.workers id worker id').Pursues other := fun other holds =>
      ⟨id, by rwa [Function.update_self]⟩
    have fromQueue : crawler.shared.service.queue.Queued crates url →
        shared.service.queue.Queued crates url ∨
          (∃ id', (Function.update crawler.workers id worker id').Pursues url) ∨
            shared.journal.Ended crates url := fun queued =>
      (moved.queued queued succeeds).imp_right fun holds => Or.inl (mover url holds)
    rcases moved.wasPushed pushed with old | fresh
    · rcases pursued url old with queued | held | ended
      · exact fromQueue queued
      · rcases Transition.exists_update crawler.workers id worker
          (fun worker => worker.Pursues url) held with kept | held
        · exact Or.inr (Or.inl kept)
        · rcases moved.pursued held succeeds known with holds | queued | ended
          · exact Or.inr (Or.inl (mover url holds))
          · exact Or.inl queued
          · exact Or.inr (Or.inr ended)
      · exact Or.inr (Or.inr (moved.ended ended))
    · exact Or.inl fresh
  | service moved =>
    rintro url ⟨text, member, parsed⟩
    rcases moved.queueGrows.pushed member with old | fresh
    · refine (pursued url ⟨text, old, parsed⟩).imp_left ?_
      rintro ⟨text, member, parsed⟩
      exact ⟨text, moved.queueGrows.waiting member, parsed⟩
    · exact Or.inl ⟨text, fresh, parsed⟩
  | monitored _ _ => exact pursued
  | interrupted => exact pursued
  | ticked _ => exact pursued

/-- No URL is lost in a run in which no call fails and every domain is known when a URL of it is
checked. -/
theorem no_url_lost {limit : Option (BitVec 64)} {clock : Instant}
    {started : StorageService Url × Nat} {crawler : Crawler Url n}
    (reached : Transition.ReachesWith (crawlerStep crates limit)
      (fun crawler action =>
        noFailure crates crawler action = true ∧ knownDomains crates crawler action = true)
      (Crawler.begin clock started) crawler) : crawler.NoneLost crates := by
  have start : (Crawler.begin clock started : Crawler Url n).Pursued crates :=
    fun url pushed => Or.inl pushed
  have pursued := reached.invariant start fun before action after pursued permitted moved =>
    (crawlerStep_moved crates moved).pursued pursued permitted.1 permitted.2
  intro url pushed
  rcases pursued url pushed with queued | ⟨id, held, _⟩ | ended
  · exact Or.inl queued
  · exact Or.inr (Or.inl ⟨id, held⟩)
  · exact Or.inr (Or.inr ended)

end Runs

/-! ### The sample web -/

/-- The worker fetches the robots.txt of a domain, publishes it and goes back to its loop. -/
def sampleDomainTask : List (Input SampleUrl) :=
  [.web sampleWeb none, .proceed, .redis .answered, .proceed, .proceed]

/-- The crawl of one page of a known domain. -/
theorem no_url_lost_sample : ∃ started,
    sampleStart CrawlerDb.sample "https://a.example/" = some started ∧
      ∃ crawler : Crawler SampleUrl 1,
        Transition.run (crawlerStep sampleCrates none)
          ((sampleTake ++ samplePageTask).map (.worker 0)) (Crawler.begin 0 started) =
            some crawler ∧
        crawler.NoneLost sampleCrates := by
  obtain ⟨started, starts, crawler, ran⟩ : ∃ started,
      sampleStart CrawlerDb.sample "https://a.example/" = some started ∧
        ∃ crawler : Crawler SampleUrl 1, Transition.runWith (crawlerStep sampleCrates none)
          (fun crawler action => noFailure sampleCrates crawler action = true ∧
            knownDomains sampleCrates crawler action = true)
          ((sampleTake ++ samplePageTask).map (.worker 0)) (Crawler.begin 0 started) =
            some crawler := ⟨_, rfl, _, rfl⟩
  have reached := Transition.reachesWith_of_runWith ran
  exact ⟨started, starts, crawler, Transition.run_of_runWith ran, no_url_lost reached⟩

/-- The only URL of a crawl is of an unknown domain. Its robots.txt is fetched and published, and
the URL is gone. -/
theorem unknown_domain_url_lost : ∃ started,
    sampleStart CrawlerDb.empty "https://a.example/" = some started ∧
      ∃ crawler : Crawler SampleUrl 1,
        Transition.ReachesWith (crawlerStep sampleCrates none)
          (fun crawler action => noFailure sampleCrates crawler action = true)
          (Crawler.begin 0 started) crawler ∧
        ¬ crawler.NoneLost sampleCrates := by
  obtain ⟨started, starts, crawler, ran⟩ : ∃ started,
      sampleStart CrawlerDb.empty "https://a.example/" = some started ∧
        ∃ crawler : Crawler SampleUrl 1, Transition.runWith (crawlerStep sampleCrates none)
          (fun crawler action => noFailure sampleCrates crawler action = true)
          ((sampleTake ++ sampleDomainTask).map (.worker 0)) (Crawler.begin 0 started) =
            some crawler := ⟨_, rfl, _, rfl⟩
  have state : ((sampleStart CrawlerDb.empty "https://a.example/").bind fun started =>
      (Transition.runWith (crawlerStep sampleCrates none)
        (fun crawler action => noFailure sampleCrates crawler action = true)
        ((sampleTake ++ sampleDomainTask).map (.worker 0))
        (Crawler.begin 0 started : Crawler SampleUrl 1)).map fun crawler =>
          (crawler.shared.service.queue.waiting, crawler.shared.service.queue.pushed,
            (crawler.workers 0).held, crawler.shared.journal.downloaded,
            crawler.shared.journal.disallowed)) =
      some ([], ["https://a.example/"], none, [], []) := by decide +kernel
  rw [starts, Option.bind_some, ran] at state
  simp only [Option.map_some, Option.some.injEq, Prod.mk.injEq] at state
  obtain ⟨waiting, pushed, held, downloaded, disallowed⟩ := state
  refine ⟨started, starts, crawler, Transition.reachesWith_of_runWith ran, fun noneLost => ?_⟩
  rcases noneLost .home ⟨"https://a.example/", pushed ▸ List.mem_cons_self, rfl⟩ with
    ⟨text, member, _⟩ | ⟨id, holds⟩ | ended
  · exact absurd (waiting ▸ member) List.not_mem_nil
  · rw [Subsingleton.elim id 0, held] at holds
    cases holds
  · rw [Journal.Ended, downloaded, disallowed] at ended
    rcases ended with member | member | none
    · cases member
    · cases member
    · cases none

end PoliteCrawler
