/-
This file says once what a step of a crawl can do.

`TaskMoved` lists the steps of a task, `WorkerMoved` those of a worker and
`CrawlerMoved` those of the crawl, each with its reason and the state it leaves.
The results about whole crawls are case analyses of them.
-/

import PoliteCrawler.CrawlerCore

namespace PoliteCrawler

variable {Url : Type} (crates : Crates Url)

/-! ### gRPC calls -/

/-- The storage service after a call that a worker makes: a lookup, or nothing. -/
def LookedUp (service next : StorageService Url) : Prop :=
  next = service ∨
    ∃ request, next = { service with storage := service.storage.afterLookup crates request }

/-- A gRPC call is answered with what the server computes, or fails. -/
theorem rpc_eq_some {Value : Type} {service next : StorageService Url} {input : Input Url}
    {serve : DbFaults → CrawlerStorage Url → Outcome Value × CrawlerStorage Url}
    {answer : Outcome Value} (called : rpc service input serve = some (answer, next)) :
    ∃ faults call, input = .rpc faults call ∧
      (next = service ∨ next = { service with storage := (serve faults service.storage).2 }) ∧
      ((∃ value, call = .answered ∧ (serve faults service.storage).1 = .ok value ∧
          answer = .ok value) ∨
        ((call = .answered → ∃ abort, (serve faults service.storage).1 = .error abort) ∧
          ∃ abort, answer = .error abort)) := by
  cases input with
  | proceed => simp [rpc] at called
  | redis call => simp [rpc] at called
  | web web keywordsFile => simp [rpc] at called
  | rpc faults call =>
    refine ⟨faults, call, rfl, ?_⟩
    cases call with
    | failed =>
      simp only [rpc, Option.some.injEq, Prod.mk.injEq] at called
      obtain ⟨rfl, rfl⟩ := called
      exact ⟨Or.inl rfl, Or.inr ⟨nofun, _, rfl⟩⟩
    | lost =>
      obtain ⟨rfl, rfl⟩ : answer = .error (.error .grpcError) ∧
          next = { service with storage := (serve faults service.storage).2 } := by
        cases consumer : service.consumer <;> simp_all [rpc]
      exact ⟨Or.inr rfl, Or.inr ⟨nofun, _, rfl⟩⟩
    | answered =>
      obtain ⟨rfl, rfl⟩ : answer = (serve faults service.storage).1.mapError
          (fun _ => .error .grpcError) ∧
          next = { service with storage := (serve faults service.storage).2 } := by
        cases consumer : service.consumer <;> simp_all [rpc]
      refine ⟨Or.inr rfl, ?_⟩
      cases served : (serve faults service.storage).1 with
      | ok value => exact Or.inl ⟨value, rfl, rfl, rfl⟩
      | error abort => exact Or.inr ⟨fun _ => ⟨abort, rfl⟩, _, rfl⟩

/-- The URL a worker sends is the URL the server reads. -/
theorem serveCheck_asStr (url : Url) (faults : DbFaults) (storage : CrawlerStorage Url) :
    serveCheck crates (crates.url.asStr url) faults storage =
      storage.checkIfUrlAllowed crates faults url := by
  simp only [serveCheck, crates.url.parse_asStr]

theorem serveCheck_lookedUp (service : StorageService Url) (url : Url) (faults : DbFaults) :
    LookedUp crates service { service with
      storage := (serveCheck crates (crates.url.asStr url) faults service.storage).2 } := by
  rw [serveCheck_asStr]
  exact Or.inr ⟨.check url faults, rfl⟩

variable {crates} in
/-- A call whose service makes a lookup is one, served or not. -/
theorem lookedUp_of_served {service next : StorageService Url} {storage : CrawlerStorage Url}
    (served : next = service ∨ next = { service with storage })
    (looks : LookedUp crates service { service with storage }) : LookedUp crates service next := by
  rcases served with rfl | rfl
  · exact Or.inl rfl
  · exact looks

theorem lookedUp_of_delay {service next : StorageService Url} {domain : String}
    {faults : DbFaults} (served : next = service ∨ next = { service with
      storage := (serveDelay crates domain faults service.storage).2 }) :
    LookedUp crates service next :=
  lookedUp_of_served served (Or.inr ⟨.delay domain faults, rfl⟩)

theorem serveInsert_lookedUp (service : StorageService Url) (url : String) (faults : DbFaults) :
    LookedUp crates service { service with
      storage := (serveInsert crates url faults service.storage).2 } := by
  unfold serveInsert
  cases crates.url.parse url with
  | error reason => exact Or.inl rfl
  | ok parsed => exact Or.inr ⟨.insertUrl parsed, rfl⟩

variable {crates} in
/-- A lookup changes neither the tables nor the queue. -/
theorem LookedUp.state {service next : StorageService Url} (looked : LookedUp crates service next) :
    next.storage.db = service.storage.db ∧ next.queue = service.queue := by
  rcases looked with rfl | ⟨request, rfl⟩
  · exact ⟨rfl, rfl⟩
  · obtain ⟨_, _, _, state⟩ := afterLookup_state crates service.storage request
    exact ⟨by show (service.storage.afterLookup crates request).db = _; rw [state], rfl⟩

/-! ### Tasks -/

variable [DecidableEq Url]

/-- The steps of a task, with the shared state and the worker each leaves. -/
inductive TaskMoved (url : Url) (ticket : Nat) (shared : Shared Url) :
    Task Url → Input Url → Shared Url → Worker Url → Prop
  | checkFailed {faults : DbFaults} {call : Call} {service : StorageService Url}
      (looked : LookedUp crates shared.service service)
      (failed : call = .answered →
        ∃ abort, (shared.service.storage.checkIfUrlAllowed crates faults url).1 = .error abort) :
      TaskMoved url ticket shared .checking (.rpc faults call) { shared with service }
        (.dropping false)
  | checkedStray {faults : DbFaults} {service : StorageService Url}
      (looked : LookedUp crates shared.service service)
      (hasNone : crates.url.domain url = none) :
      TaskMoved url ticket shared .checking (.rpc faults .answered) { shared with service }
        (.dropping false)
  | checkedUnknown {faults : DbFaults} {service : StorageService Url}
      (looked : LookedUp crates shared.service service)
      (unknown : (shared.service.storage.checkIfUrlAllowed crates faults url).1 =
        .ok .unknownDomain) :
      TaskMoved url ticket shared .checking (.rpc faults .answered) { shared with service }
        (.working url ticket .fetchingRobots)
  | checkedDisallowed {faults : DbFaults} {service : StorageService Url}
      (looked : LookedUp crates shared.service service) :
      TaskMoved url ticket shared .checking (.rpc faults .answered)
        (Shared.noteDisallowed { shared with service } url) (.dropping false)
  | checkedSitemap {faults : DbFaults} {service : StorageService Url} {domain : String}
      (looked : LookedUp crates shared.service service) :
      TaskMoved url ticket shared .checking (.rpc faults .answered) { shared with service }
        (.working url ticket (.awaiting domain))
  | checkedPage {faults : DbFaults} {service : StorageService Url} {domain : String}
      (looked : LookedUp crates shared.service service)
      (allowed : (shared.service.storage.checkIfUrlAllowed crates faults url).1 = .ok .allowed) :
      TaskMoved url ticket shared .checking (.rpc faults .answered) { shared with service }
        (.working url ticket (.askingDelay domain shared.service.storage))
  | robotsFetched {web : Web Url} {keywordsFile : Option String} {data : DomainData}
      (got : getDomainData crates web url defaultAgentName = .ok data) :
      TaskMoved url ticket shared .fetchingRobots (.web web keywordsFile) shared
        (.working url ticket (.updatingDelay data))
  | robotsFailed {web : Web Url} {keywordsFile : Option String} {ends : Bool} :
      TaskMoved url ticket shared .fetchingRobots (.web web keywordsFile) shared (.dropping ends)
  | delayUpdated {data : DomainData} {delay : Duration}
      (converts : data.delay.toDuration = some delay) :
      TaskMoved url ticket shared (.updatingDelay data) .proceed
        { shared with
          limiter := shared.limiter.updateDelay data.domainString delay shared.clock }
        (.working url ticket (.savingDomain data))
  | delayPanicked {data : DomainData} (inconvertible : data.delay.toDuration = none) :
      TaskMoved url ticket shared (.updatingDelay data) .proceed shared (.dropping true)
  | domainSaved {data : DomainData} {call : Call} {next : Worker Url}
      (goesOn : next = .working url ticket (.inserting [] []) ∨
        call ≠ .answered ∧ next = .dropping false) :
      TaskMoved url ticket shared (.savingDomain data) (.redis call)
        { shared with
          service := publishEvent crates shared.service
            (.parsedDomain (DomainDataSaveData.fromDomainData data)) call }
        next
  | awaited {domain : String} :
      TaskMoved url ticket shared (.awaiting domain) .proceed shared
        (.working url ticket (.sleeping domain shared.clock))
  | slept {domain : String} {stamp : Instant} :
      TaskMoved url ticket shared (.sleeping domain stamp) .proceed
        { shared with limiter := (shared.limiter.awaitAcquiring domain stamp).2 }
        (.working url ticket (.askingSitemapDelay domain))
  | sitemapDelayAsked {domain : String} {faults : DbFaults} {call : Call}
      {service : StorageService Url} {next : Worker Url}
      (looked : LookedUp crates shared.service service)
      (goesOn : next = .working url ticket .fetchingSitemap ∨
        (call = .answered →
          ∃ abort, (shared.service.storage.getDelay crates faults domain).1 = .error abort) ∧
          next = .dropping false) :
      TaskMoved url ticket shared (.askingSitemapDelay domain) (.rpc faults call)
        { shared with service } next
  | sitemapFetched {web : Web Url} {keywordsFile : Option String} {links : List Url}
      (got : SitemapsParser.parse crates web [crates.url.asStr url] = .ok links) :
      TaskMoved url ticket shared .fetchingSitemap (.web web keywordsFile)
        (shared.noteDownload url)
        (.working url ticket (.inserting (sortedLinks crates links) []))
  | sitemapFailed {web : Web Url} {keywordsFile : Option String} {ends : Bool} :
      TaskMoved url ticket shared .fetchingSitemap (.web web keywordsFile)
        (shared.noteDownload url) (.dropping ends)
  | delayAsked {host : String} {decided : CrawlerStorage Url} {faults : DbFaults} {call : Call}
      {service : StorageService Url} {next : Worker Url}
      (looked : LookedUp crates shared.service service)
      (goesOn : next = .working url ticket (.fetchingPage decided) ∨
        (call = .answered →
          ∃ abort, (shared.service.storage.getDelay crates faults host).1 = .error abort) ∧
          next = .dropping false) :
      TaskMoved url ticket shared (.askingDelay host decided) (.rpc faults call)
        { shared with service } next
  | pageFetched {decided : CrawlerStorage Url} {web : Web Url} {keywordsFile : Option String}
      {data : NotParsedPageData Url} {next : Worker Url}
      (got : getPage crates web url = .ok data)
      (goesOn : next =
          .working url ticket (.savingPage (ParsedPage.parse crates keywordsFile data).2 decided) ∨
        next = .working url ticket (.inserting (sortedLinks crates
          (ParsedPage.parse crates keywordsFile data).2.outboundLinks) [])) :
      TaskMoved url ticket shared (.fetchingPage decided) (.web web keywordsFile)
        ((shared.noteDownload url).notePageGrant ticket) next
  | pageFailed {decided : CrawlerStorage Url} {web : Web Url} {keywordsFile : Option String}
      {ends : Bool} :
      TaskMoved url ticket shared (.fetchingPage decided) (.web web keywordsFile)
        ((shared.noteDownload url).notePageGrant ticket) (.dropping ends)
  | pageSaved {page : ParsedPage Url} {decided : CrawlerStorage Url} {call : Call}
      {next : Worker Url} (performed : call ≠ .failed)
      (goesOn : next = .working url ticket (.countingPage page.outboundLinks) ∨
        call ≠ .answered ∧ next = .dropping false) :
      TaskMoved url ticket shared (.savingPage page decided) (.redis call)
        (shared.notePublished ⟨convertParsedPageToSaveData crates page, decided⟩
          (publishEvent crates shared.service
            (.parsedPage (convertParsedPageToSaveData crates page)) call))
        next
  | pageUnsaved {page : ParsedPage Url} {decided : CrawlerStorage Url} :
      TaskMoved url ticket shared (.savingPage page decided) (.redis .failed) shared
        (.dropping false)
  | pageCounted {links : List Url} :
      TaskMoved url ticket shared (.countingPage links) .proceed
        { shared with pagesCrawled := shared.pagesCrawled + 1 }
        (.working url ticket (.inserting (sortedLinks crates links) []))
  | linkInserted {link : Url} {rest : List Url} {filtered found : List String}
      {faults : DbFaults} {call : Call} {service : StorageService Url}
      (looked : LookedUp crates shared.service service)
      (goesOn : found = filtered ++ [crates.url.asStr link] ∨ found = filtered) :
      TaskMoved url ticket shared (.inserting (link :: rest) filtered) (.rpc faults call)
        { shared with service } (.working url ticket (.inserting rest found))
  | noneFound : TaskMoved url ticket shared (.inserting [] []) .proceed shared (.dropping false)
  | someFound {filtered : List String} (found : filtered ≠ []) :
      TaskMoved url ticket shared (.inserting [] filtered) .proceed shared
        (.working url ticket (.pushing 1 filtered))
  | pushed {attempt : Nat} {filtered : List String} :
      TaskMoved url ticket shared (.pushing attempt filtered) (.redis .answered)
        { shared with service := pushTasks shared.service filtered .answered }
        (.working url ticket (.adding filtered.length))
  | pushFailed {attempt : Nat} {filtered : List String} {call : Call} {next : Worker Url}
      (failed : call ≠ .answered)
      (goesOn : attempt = pushAttempts ∧ next = .dropping true ∨
        next = .working url ticket (.pushing (attempt + 1) filtered)) :
      TaskMoved url ticket shared (.pushing attempt filtered) (.redis call)
        { shared with service := pushTasks shared.service filtered call } next
  | added {count : Nat} :
      TaskMoved url ticket shared (.adding count) .proceed
        { shared with activeTasks := shared.activeTasks + BitVec.ofNat 64 count } (.dropping false)

section Inversion

variable {crates} {input : Input Url} {url : Url} {ticket : Nat} {shared next : Shared Url}
  {worker : Worker Url}

theorem checkTask_moved (moved : checkTask crates input url ticket shared = some (next, worker)) :
    TaskMoved crates url ticket shared .checking input next worker := by
  obtain ⟨⟨answer, service⟩, called, made⟩ := Option.map_eq_some_iff.mp moved
  obtain ⟨faults, call, rfl, served, outcome⟩ := rpc_eq_some called
  have looked : LookedUp crates shared.service service :=
    lookedUp_of_served served (serveCheck_lookedUp crates shared.service url faults)
  rw [serveCheck_asStr] at outcome
  rcases outcome with ⟨access, rfl, answered, rfl⟩ | ⟨failed, abort, rfl⟩
  · cases access with
    | urlWithoutHost =>
      obtain ⟨rfl, rfl⟩ := Prod.mk.inj made
      exact .checkedStray looked
        (CrawlerStorage.checkIfUrlAllowed_urlWithoutHost crates answered)
    | unknownDomain =>
      obtain ⟨rfl, rfl⟩ := Prod.mk.inj made
      exact .checkedUnknown looked answered
    | disallowed =>
      obtain ⟨rfl, rfl⟩ := Prod.mk.inj made
      exact .checkedDisallowed looked
    | allowed =>
      simp only [afterCheck] at made
      split at made
      · rename_i hasNone
        obtain ⟨rfl, rfl⟩ := Prod.mk.inj made
        exact .checkedStray looked hasNone
      · split at made
        · obtain ⟨rfl, rfl⟩ := Prod.mk.inj made
          exact .checkedSitemap looked
        · obtain ⟨rfl, rfl⟩ := Prod.mk.inj made
          exact .checkedPage looked answered
  · obtain ⟨rfl, rfl⟩ := Prod.mk.inj made
    exact .checkFailed looked failed

theorem fetchRobotsTask_moved
    (moved : fetchRobotsTask crates input url ticket shared = some (next, worker)) :
    TaskMoved crates url ticket shared .fetchingRobots input next worker := by
  unfold fetchRobotsTask at moved
  split at moved
  · rename_i web keywordsFile
    cases got : getDomainData crates web url defaultAgentName with
    | ok data =>
      rw [got] at moved
      cases moved
      exact .robotsFetched got
    | error abort =>
      rw [got] at moved
      cases abort <;> cases moved <;> exact .robotsFailed
  · cases moved

theorem updateDelayTask_moved {data : DomainData}
    (moved : updateDelayTask input url ticket data shared = some (next, worker)) :
    TaskMoved crates url ticket shared (.updatingDelay data) input next worker := by
  unfold updateDelayTask at moved
  split at moved
  · rename_i delay converts
    cases moved
    exact .delayUpdated converts
  · rename_i inconvertible
    cases moved
    exact .delayPanicked inconvertible
  · cases moved

theorem saveDomainTask_moved {data : DomainData}
    (moved : saveDomainTask crates input url ticket data shared = some (next, worker)) :
    TaskMoved crates url ticket shared (.savingDomain data) input next worker := by
  unfold saveDomainTask at moved
  split at moved
  · rename_i call
    cases moved
    by_cases answered : call = .answered
    · rw [if_pos answered]
      exact .domainSaved (Or.inl rfl)
    · rw [if_neg answered]
      exact .domainSaved (Or.inr ⟨answered, rfl⟩)
  · cases moved

theorem awaitTask_moved {domain : String}
    (moved : awaitTask input url ticket domain shared = some (next, worker)) :
    TaskMoved crates url ticket shared (.awaiting domain) input next worker := by
  unfold awaitTask at moved
  split at moved <;> cases moved
  exact .awaited

theorem sleepTask_moved {domain : String} {stamp : Instant}
    (moved : sleepTask input url ticket domain stamp shared = some (next, worker)) :
    TaskMoved crates url ticket shared (.sleeping domain stamp) input next worker := by
  unfold sleepTask at moved
  split at moved <;> cases moved
  exact .slept

omit [DecidableEq Url] in
/-- A delay that is asked for leads on, or to the end of the task. -/
theorem askDelayTask_eq_some {domain : String} {go : Worker Url}
    (moved : askDelayTask crates input domain go shared = some (next, worker)) :
    ∃ faults call service, input = .rpc faults call ∧ next = { shared with service } ∧
      (service = shared.service ∨ service = { shared.service with
        storage := (serveDelay crates domain faults shared.service.storage).2 }) ∧
      (worker = go ∨ (call = .answered → ∃ abort,
        (shared.service.storage.getDelay crates faults domain).1 = .error abort) ∧
          worker = .dropping false) := by
  obtain ⟨⟨answer, service⟩, called, made⟩ := Option.map_eq_some_iff.mp moved
  obtain ⟨faults, call, rfl, served, outcome⟩ := rpc_eq_some called
  refine ⟨faults, call, service, rfl, (Prod.mk.inj made).1.symm, served, ?_⟩
  rcases outcome with ⟨delay, rfl, _, rfl⟩ | ⟨failed, abort, rfl⟩
  · exact Or.inl (Prod.mk.inj made).2.symm
  · exact Or.inr ⟨failed, (Prod.mk.inj made).2.symm⟩

theorem fetchSitemapTask_moved
    (moved : fetchSitemapTask crates input url ticket shared = some (next, worker)) :
    TaskMoved crates url ticket shared .fetchingSitemap input next worker := by
  unfold fetchSitemapTask at moved
  split at moved
  · rename_i web keywordsFile
    cases got : SitemapsParser.parse crates web [crates.url.asStr url] with
    | ok links =>
      rw [got] at moved
      cases moved
      exact .sitemapFetched got
    | error abort =>
      rw [got] at moved
      cases abort <;> cases moved <;> exact .sitemapFailed
  · cases moved

theorem fetchPageTask_moved {decided : CrawlerStorage Url}
    (moved : fetchPageTask crates input url ticket decided shared = some (next, worker)) :
    TaskMoved crates url ticket shared (.fetchingPage decided) input next worker := by
  unfold fetchPageTask at moved
  split at moved
  · rename_i web keywordsFile
    cases got : getPage crates web url with
    | ok data =>
      rw [got] at moved
      cases moved
      refine .pageFetched got ?_
      dsimp only
      split
      · exact Or.inl rfl
      · exact Or.inr rfl
    | error abort =>
      rw [got] at moved
      cases abort <;> cases moved <;> exact .pageFailed
  · cases moved

theorem savePageTask_moved {page : ParsedPage Url} {decided : CrawlerStorage Url}
    (moved : savePageTask crates input url ticket page decided shared = some (next, worker)) :
    TaskMoved crates url ticket shared (.savingPage page decided) input next worker := by
  unfold savePageTask at moved
  split at moved
  · rename_i call
    cases moved
    cases call with
    | answered => exact .pageSaved (by decide) (Or.inl rfl)
    | lost => exact .pageSaved (by decide) (Or.inr ⟨by decide, rfl⟩)
    | failed => exact .pageUnsaved
  · cases moved

theorem countPageTask_moved {links : List Url}
    (moved : countPageTask crates input url ticket links shared = some (next, worker)) :
    TaskMoved crates url ticket shared (.countingPage links) input next worker := by
  unfold countPageTask at moved
  split at moved <;> cases moved
  exact .pageCounted

theorem insertTask_moved {links : List Url} {filtered : List String}
    (moved : insertTask crates input url ticket links filtered shared = some (next, worker)) :
    TaskMoved crates url ticket shared (.inserting links filtered) input next worker := by
  unfold insertTask at moved
  split at moved
  · cases moved
    by_cases found : filtered = []
    · subst found
      exact .noneFound
    · rw [if_neg found]
      exact .someFound found
  · cases moved
  · rename_i link rest
    obtain ⟨⟨answer, service⟩, called, made⟩ := Option.map_eq_some_iff.mp moved
    obtain ⟨faults, call, rfl, served, _⟩ := rpc_eq_some called
    have looked : LookedUp crates shared.service service :=
      lookedUp_of_served served
        (serveInsert_lookedUp crates shared.service (crates.url.asStr link) faults)
    rw [← (Prod.mk.inj made).1, ← (Prod.mk.inj made).2]
    dsimp only
    split
    · exact .linkInserted looked (Or.inl rfl)
    · exact .linkInserted looked (Or.inr rfl)

theorem pushTask_moved {attempt : Nat} {filtered : List String}
    (moved : pushTask input url ticket attempt filtered shared = some (next, worker)) :
    TaskMoved crates url ticket shared (.pushing attempt filtered) input next worker := by
  unfold pushTask at moved
  split at moved
  · rename_i call
    cases moved
    by_cases answered : call = .answered
    · subst answered
      exact .pushed
    · rw [if_neg answered]
      refine .pushFailed answered ?_
      split
      · exact Or.inl ⟨‹_›, rfl⟩
      · exact Or.inr rfl
  · cases moved

theorem addTask_moved {count : Nat}
    (moved : addTask input count shared = some (next, worker)) :
    TaskMoved crates url ticket shared (.adding count) input next worker := by
  unfold addTask at moved
  split at moved <;> cases moved
  exact .added

/-- Every step of a task is one of those listed. -/
theorem taskStep_moved {task : Task Url}
    (moved : taskStep crates input url ticket shared task = some (next, worker)) :
    TaskMoved crates url ticket shared task input next worker := by
  cases task with
  | checking => exact checkTask_moved moved
  | fetchingRobots => exact fetchRobotsTask_moved moved
  | updatingDelay data => exact updateDelayTask_moved moved
  | savingDomain data => exact saveDomainTask_moved moved
  | awaiting domain => exact awaitTask_moved moved
  | sleeping domain stamp => exact sleepTask_moved moved
  | askingSitemapDelay domain =>
    obtain ⟨faults, call, service, rfl, rfl, served, goesOn⟩ := askDelayTask_eq_some moved
    exact .sitemapDelayAsked (lookedUp_of_delay crates served) goesOn
  | fetchingSitemap => exact fetchSitemapTask_moved moved
  | askingDelay host decided =>
    obtain ⟨faults, call, service, rfl, rfl, served, goesOn⟩ := askDelayTask_eq_some moved
    exact .delayAsked (lookedUp_of_delay crates served) goesOn
  | fetchingPage decided => exact fetchPageTask_moved moved
  | savingPage page decided => exact savePageTask_moved moved
  | countingPage links => exact countPageTask_moved moved
  | inserting links filtered => exact insertTask_moved moved
  | pushing attempt filtered => exact pushTask_moved moved
  | adding count => exact addTask_moved moved

end Inversion

/-! ### Workers -/

/-- The shared state after the front of the queue is taken and `rest` is left. -/
def Shared.dequeue (shared : Shared Url) (rest : List String) : Shared Url :=
  { shared with
    service := { shared.service with queue := ⟨rest, shared.service.queue.pushed⟩ } }

/-- The shared state after the rate limiter lets a URL of the domain through. -/
def Shared.grant (shared : Shared Url) (domain : String) (stamp : Instant) : Shared Url :=
  { shared with
    limiter := shared.limiter.setEntry domain
      { shared.limiter.entry domain stamp with lastAccessed := stamp }
    journal := { shared.journal with
      grants := shared.journal.grants ++
        [⟨domain, stamp, storedDelay shared.service.storage.db domain⟩] } }

/-- The steps of a worker, with the shared state and the worker each leaves. -/
inductive WorkerMoved (shared : Shared Url) :
    Worker Url → Input Url → Shared Url → Worker Url → Prop
  | looped {next : Worker Url} (goesOn : next = .exited ∨ next = .popping) :
      WorkerMoved shared .atLoop .proceed shared next
  | popFailed {call : Call} (none : call = .failed ∨ shared.service.queue.waiting = []) :
      WorkerMoved shared .popping (.redis call) shared .exited
  | popLost {text : String} {rest : List String}
      (waiting : shared.service.queue.waiting = text :: rest) :
      WorkerMoved shared .popping (.redis .lost) (shared.dequeue rest) .exited
  | popUnparsed {text : String} {rest : List String} {reason : ParseError}
      (waiting : shared.service.queue.waiting = text :: rest)
      (unparsed : crates.url.parse text = .error reason) :
      WorkerMoved shared .popping (.redis .answered) (shared.dequeue rest) .exited
  | popped {text : String} {rest : List String} {url : Url}
      (waiting : shared.service.queue.waiting = text :: rest)
      (parsed : crates.url.parse text = .ok url) :
      WorkerMoved shared .popping (.redis .answered) (shared.dequeue rest) (.arrived url)
  | stamped {url : Url} {domain : String} (has : crates.url.domain url = some domain) :
      WorkerMoved shared (.arrived url) .proceed shared (.acquiring url domain shared.clock)
  | strayed {url : Url} (hasNone : crates.url.domain url = none) :
      WorkerMoved shared (.arrived url) .proceed shared .stray
  | granted {url : Url} {domain : String} {stamp : Instant}
      (passed : (shared.limiter.entry domain stamp).delay ≤
        saturatingDurationSince stamp (shared.limiter.entry domain stamp).lastAccessed) :
      WorkerMoved shared (.acquiring url domain stamp) .proceed (shared.grant domain stamp)
        (.working url shared.journal.grants.length .checking)
  | refused {url : Url} {domain : String} {stamp : Instant} :
      WorkerMoved shared (.acquiring url domain stamp) .proceed
        { shared with limiter :=
            shared.limiter.setEntry domain (shared.limiter.entry domain stamp) }
        (.requeueing url)
  | requeued {url : Url} :
      WorkerMoved shared (.requeueing url) (.redis .answered)
        { shared with service := pushTasks shared.service [crates.url.asStr url] .answered }
        .atLoop
  | requeueFailed {url : Url} {call : Call} (failed : call ≠ .answered) :
      WorkerMoved shared (.requeueing url) (.redis call)
        { shared with service := pushTasks shared.service [crates.url.asStr url] call }
        .releasing
  | released {worker next : Worker Url}
      (owed : worker = .stray ∧ next = .atLoop ∨ worker = .releasing ∧ next = .atLoop ∨
        ∃ ends, worker = .dropping ends ∧ (next = .exited ∨ next = .atLoop)) :
      WorkerMoved shared worker .proceed shared.release next
  | task {url : Url} {ticket : Nat} {task : Task Url} {input : Input Url} {next : Shared Url}
      {worker : Worker Url} (moved : TaskMoved crates url ticket shared task input next worker) :
      WorkerMoved shared (.working url ticket task) input next worker

section Inversion

variable {crates} {shared next : Shared Url} {worker after : Worker Url}

theorem popStep_moved {call : Call} (moved : popStep crates call shared = (next, after)) :
    WorkerMoved crates shared .popping (.redis call) next after := by
  cases waiting : shared.service.queue.waiting with
  | nil =>
    have stays : popStep crates call shared = (shared, .exited) := by
      cases call <;> simp only [popStep, TaskQueue.popFront, waiting]
    obtain ⟨rfl, rfl⟩ := Prod.mk.inj (stays.symm.trans moved)
    exact .popFailed (Or.inr waiting)
  | cons text rest =>
    cases call with
    | failed =>
      cases moved
      exact .popFailed (Or.inl rfl)
    | lost =>
      simp only [popStep, TaskQueue.popFront, waiting] at moved
      obtain ⟨rfl, rfl⟩ := Prod.mk.inj moved
      exact .popLost waiting
    | answered =>
      simp only [popStep, TaskQueue.popFront, waiting] at moved
      obtain ⟨rfl, goesOn⟩ := Prod.mk.inj moved
      split at goesOn
      · rename_i url parsed
        subst goesOn
        exact .popped waiting parsed
      · rename_i reason unparsed
        subst goesOn
        exact .popUnparsed waiting unparsed

theorem acquireStep_moved {url : Url} {domain : String} {stamp : Instant}
    (moved : acquireStep url domain stamp shared = (next, after)) :
    WorkerMoved crates shared (.acquiring url domain stamp) .proceed next after := by
  cases acquired : (shared.limiter.tryAcquire domain stamp).1 with
  | true =>
    obtain ⟨passed, entered⟩ := shared.limiter.tryAcquire_granted domain stamp acquired
    simp only [acquireStep, acquired, entered, if_true] at moved
    obtain ⟨rfl, rfl⟩ := Prod.mk.inj moved
    exact .granted passed
  | false =>
    have entered := shared.limiter.tryAcquire_refused domain stamp acquired
    simp only [acquireStep, acquired, entered, Bool.false_eq_true, if_false] at moved
    obtain ⟨rfl, rfl⟩ := Prod.mk.inj moved
    exact .refused

/-- Every step of a worker is one of those listed. -/
theorem workerStep_moved {input : Input Url}
    (moved : workerStep crates input shared worker = some (next, after)) :
    WorkerMoved crates shared worker input next after := by
  cases worker with
  | atLoop =>
    cases input <;> cases moved
    refine .looped ?_
    split
    · exact Or.inl rfl
    · exact Or.inr rfl
  | popping =>
    cases input with
    | redis call => exact popStep_moved (Option.some.inj moved)
    | _ => cases moved
  | arrived url =>
    cases input with
    | proceed =>
      obtain ⟨rfl, goesOn⟩ := Prod.mk.inj (Option.some.inj moved)
      cases domain : crates.url.domain url with
      | none =>
        rw [domain] at goesOn
        subst goesOn
        exact .strayed domain
      | some host =>
        rw [domain] at goesOn
        subst goesOn
        exact .stamped domain
    | _ => cases moved
  | stray =>
    cases input <;> cases moved
    exact .released (Or.inl ⟨rfl, rfl⟩)
  | acquiring url domain stamp =>
    cases input with
    | proceed => exact acquireStep_moved (Option.some.inj moved)
    | _ => cases moved
  | requeueing url =>
    cases input with
    | redis call =>
      cases moved
      by_cases answered : call = .answered
      · subst answered
        exact .requeued
      · rw [if_neg answered]
        exact .requeueFailed answered
    | _ => cases moved
  | releasing =>
    cases input <;> cases moved
    exact .released (Or.inr (Or.inl ⟨rfl, rfl⟩))
  | working url ticket task => exact .task (taskStep_moved moved)
  | dropping ends =>
    cases input <;> cases moved
    refine .released (Or.inr (Or.inr ⟨ends, rfl, ?_⟩))
    split
    · exact Or.inl rfl
    · exact Or.inr rfl
  | exited => cases moved

/-- No worker moves the clock. -/
theorem WorkerMoved.clock_eq {input : Input Url}
    (moved : WorkerMoved crates shared worker input next after) : next.clock = shared.clock := by
  cases moved with
  | task moved => cases moved <;> rfl
  | _ => rfl

end Inversion

/-! ### The crawl -/

/-- The steps of a crawl, with the state each leaves. -/
inductive CrawlerMoved {n : Nat} (crawler : Crawler Url n) :
    CrawlerAction Url n → Crawler Url n → Prop
  | worker {id : Fin n} {input : Input Url} {shared : Shared Url} {worker : Worker Url}
      (moved : WorkerMoved crates crawler.shared (crawler.workers id) input shared worker) :
      CrawlerMoved crawler (.worker id input)
        { crawler with shared, workers := Function.update crawler.workers id worker }
  | service {action : ServiceAction Url} {service : StorageService Url}
      (moved : ServiceMoved crates crawler.shared.service action service) :
      CrawlerMoved crawler (.service action)
        { crawler with shared := { crawler.shared with service } }
  | monitored (cancelled monitoring : Bool) :
      CrawlerMoved crawler .monitor
        { crawler with shared := { crawler.shared with cancelled }, monitoring }
  | interrupted :
      CrawlerMoved crawler .interrupt
        { crawler with shared := { crawler.shared with cancelled := true } }
  | ticked (elapsed : Duration) :
      CrawlerMoved crawler (.tick elapsed)
        { crawler with
          shared := { crawler.shared with clock := crawler.shared.clock + elapsed } }

/-- Every step of a crawl is one of those listed. -/
theorem crawlerStep_moved {n : Nat} {limit : Option (BitVec 64)} {action : CrawlerAction Url n}
    {crawler next : Crawler Url n} (moved : crawlerStep crates limit action crawler = some next) :
    CrawlerMoved crates crawler action next := by
  cases action with
  | worker id input =>
    obtain ⟨⟨shared, worker⟩, stepped, rfl⟩ := Option.map_eq_some_iff.mp moved
    exact .worker (workerStep_moved stepped)
  | service action =>
    obtain ⟨service, stepped, rfl⟩ := Option.map_eq_some_iff.mp moved
    exact .service (serviceStep_moved crates stepped)
  | monitor =>
    simp only [crawlerStep] at moved
    split at moved
    · cases moved
      unfold monitorStep
      split
      · exact .monitored _ _
      · split
        · exact .monitored _ _
        · exact .monitored crawler.shared.cancelled crawler.monitoring
    · cases moved
  | interrupt =>
    cases moved
    exact .interrupted
  | tick elapsed =>
    cases moved
    exact .ticked elapsed

end PoliteCrawler
