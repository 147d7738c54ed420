/-
This file models a crawl: the worker loops with everything they share, the
monitor loop, and the storage service beside them.

A worker is a program counter with the data it carries. A step of a worker is
one atomic action of its loop: a Redis call, a gRPC call, a download, a clock
reading, an access to the rate limiter, or a read or write of a counter. What
the outside answers is the step's input. Steps of different workers, of the
storage service and of the monitor interleave freely.

The journal is not part of the program. It records what a run has done: the URLs
that reached an end, the grants of the rate limiter, and the page events with
the storage state in which their download was decided.
-/

import PoliteCrawler.DomainRateLimiter
import PoliteCrawler.SitemapsParser
import PoliteCrawler.StreamConsumer
import Mathlib.Data.List.Sort
import Mathlib.Data.List.Destutter

namespace PoliteCrawler

def defaultAgentName : String := "EDUCATIONAL_CRAWLER"

/-! ### What the outside answers -/

/-- The input of a worker step. -/
inductive Input (Url : Type)
  | proceed
  | redis (call : Call)
  /-- A gRPC call, with the database attempts that fail while the server handles it. -/
  | rpc (faults : DbFaults) (call : Call)
  /-- A download, with the keywords file as the parser finds it. -/
  | web (web : Web Url) (keywordsFile : Option String)

/-! ### State -/

/-- A grant of the rate limiter: its clock reading, and the delay the storage service had stored
for the domain. -/
structure Grant where
  domain : String
  stamp : Instant
  stored : Option Duration
  deriving DecidableEq, Repr

/-- A published page event, and the storage state in which its download was decided. -/
structure PublishedPage (Url : Type) where
  page : ParsedPageSaveData
  decided : CrawlerStorage Url

structure Journal (Url : Type) where
  downloaded : List Url
  disallowed : List Url
  grants : List Grant
  /-- The numbers of the grants that led to the download of a page. -/
  pageGrants : List Nat
  published : List (PublishedPage Url)

def Journal.empty {Url : Type} : Journal Url := ⟨[], [], [], [], []⟩

/-- What the workers share. -/
structure Shared (Url : Type) where
  service : StorageService Url
  activeTasks : BitVec 64
  pagesCrawled : BitVec 64
  limiter : DomainRateLimiter
  cancelled : Bool
  clock : Instant
  journal : Journal Url

/-- Where a worker stands with a URL it was granted: in `process_single_url`, and in the handling
of its result after that. -/
inductive Task (Url : Type)
  | checking
  | fetchingRobots
  | updatingDelay (data : DomainData)
  | savingDomain (data : DomainData)
  | awaiting (domain : String)
  | sleeping (domain : String) (stamp : Instant)
  | askingSitemapDelay (domain : String)
  | fetchingSitemap
  | askingDelay (host : String) (decided : CrawlerStorage Url)
  | fetchingPage (decided : CrawlerStorage Url)
  | savingPage (page : ParsedPage Url) (decided : CrawlerStorage Url)
  | countingPage (links : List Url)
  | inserting (links : List Url) (filtered : List String)
  | pushing (attempt : Nat) (filtered : List String)
  | adding (count : Nat)

/-- Where a worker stands in `worker_loop`. From `working` on it owns a `TaskGuard`, which
`dropping` drops; the flag says whether the worker ends after that. -/
inductive Worker (Url : Type)
  | atLoop
  | popping
  | arrived (url : Url)
  | stray
  | acquiring (url : Url) (domain : String) (stamp : Instant)
  | requeueing (url : Url)
  | releasing
  | working (url : Url) (ticket : Nat) (task : Task Url)
  | dropping (ends : Bool)
  | exited

/-! ### The calls of a worker -/

section Steps

variable {Url : Type} (crates : Crates Url)

/-- A gRPC call. A server that is down answers none; an error of the server is an error status. -/
def rpc {Value : Type} (service : StorageService Url) (input : Input Url)
    (serve : DbFaults → CrawlerStorage Url → Outcome Value × CrawlerStorage Url) :
    Option (Outcome Value × StorageService Url) :=
  match input, service.consumer with
  | .rpc _ .failed, _ => some (.error (.error .grpcError), service)
  | .rpc _ _, .down => none
  | .rpc faults .lost, _ =>
    some (.error (.error .grpcError),
      { service with storage := (serve faults service.storage).2 })
  | .rpc faults .answered, _ =>
    let served := serve faults service.storage
    some (served.1.mapError fun _ => .error .grpcError, { service with storage := served.2 })
  | _, _ => none

/-- `check_url_allowed` of the gRPC service. -/
def serveCheck (url : String) (faults : DbFaults) (storage : CrawlerStorage Url) :
    Outcome UrlAccess × CrawlerStorage Url :=
  match crates.url.parse url with
  | .error _ => (.error (.error .grpcError), storage)
  | .ok url => storage.checkIfUrlAllowed crates faults url

/-- `get_delay` of the gRPC service. The workers do not use the value. -/
def serveDelay (domain : String) (faults : DbFaults) (storage : CrawlerStorage Url) :
    Outcome Duration × CrawlerStorage Url :=
  storage.getDelay crates faults domain

/-- `insert_url` of the gRPC service. -/
def serveInsert (url : String) (_ : DbFaults) (storage : CrawlerStorage Url) :
    Outcome Bool × CrawlerStorage Url :=
  match crates.url.parse url with
  | .error _ => (.error (.error .grpcError), storage)
  | .ok url =>
    let inserted := storage.insertUrlInSeenUrls crates url
    (.ok inserted.1, inserted.2)

/-- `XADD` of an event. -/
def publishEvent (service : StorageService Url) (event : ParsedData) (call : Call) :
    StorageService Url :=
  if call = .failed then service
  else { service with log := service.log.append (some (crates.toJson event)) }

/-- `RPUSH` on the task queue. -/
def pushTasks (service : StorageService Url) (urls : List String) (call : Call) :
    StorageService Url :=
  if call = .failed then service else { service with queue := service.queue.pushBulk urls }

variable [DecidableEq Url]

/-- `outbound_links.sort()` and `dedup()` -/
def sortedLinks (links : List Url) : List Url :=
  (links.insertionSort fun first second =>
    crates.url.asStr first ≤ crates.url.asStr second).destutter (· ≠ ·)

/-- The delay stored for a domain. A NULL is read as zero. -/
def storedDelay (db : CrawlerDb) (domain : String) : Option Duration :=
  (db.domains.find? domain).bind fun row => (row.delay.getD 0).toDuration

/-- The path of a sitemap. -/
def isSitemapPath (url : Url) : Bool :=
  let path := crates.unicode.toLowercase (crates.url.path url)
  endsWith path ".xml" || endsWith path ".xml.gz"

/-! ### The steps of a task -/

/-- The task goes on, or the guard is dropped. -/
abbrev TaskStep (Url : Type) := Option (Shared Url × Worker Url)

/-- The journal after a URL is answered as disallowed. -/
def Shared.noteDisallowed (shared : Shared Url) (url : Url) : Shared Url :=
  { shared with journal := { shared.journal with disallowed := url :: shared.journal.disallowed } }

/-- The journal after a download of the URL. -/
def Shared.noteDownload (shared : Shared Url) (url : Url) : Shared Url :=
  { shared with journal := { shared.journal with downloaded := url :: shared.journal.downloaded } }

/-- The journal after the download of a page with the grant of the number. -/
def Shared.notePageGrant (shared : Shared Url) (ticket : Nat) : Shared Url :=
  { shared with
    journal := { shared.journal with pageGrants := ticket :: shared.journal.pageGrants } }

/-- The journal after a page event. -/
def Shared.notePublished (shared : Shared Url) (published : PublishedPage Url)
    (service : StorageService Url) : Shared Url :=
  { shared with
    service
    journal := { shared.journal with published := published :: shared.journal.published } }

/-- The branches of `process_single_url`. -/
def afterCheck (url : Url) (ticket : Nat) (shared next : Shared Url) :
    Outcome UrlAccess → Shared Url × Worker Url
  | .error _ | .ok .urlWithoutHost => (next, .dropping false)
  | .ok .unknownDomain => (next, .working url ticket .fetchingRobots)
  | .ok .disallowed => (next.noteDisallowed url, .dropping false)
  | .ok .allowed =>
    match crates.url.domain url with
    | none => (next, .dropping false)
    | some domain =>
      if isSitemapPath crates url then (next, .working url ticket (.awaiting domain))
      else (next, .working url ticket (.askingDelay domain shared.service.storage))

def checkTask (input : Input Url) (url : Url) (ticket : Nat) (shared : Shared Url) : TaskStep Url :=
  (rpc shared.service input (serveCheck crates (crates.url.asStr url))).map fun answer =>
    afterCheck crates url ticket shared { shared with service := answer.2 } answer.1

/-- The result of a download: it goes on with the value, ends the task on an error, and ends the
worker on a panic. -/
def afterDownload {Value : Type} (shared : Shared Url) (go : Value → Worker Url) :
    Outcome Value → Shared Url × Worker Url
  | .ok value => (shared, go value)
  | .error (.error _) => (shared, .dropping false)
  | .error .panicked => (shared, .dropping true)

def fetchRobotsTask (input : Input Url) (url : Url) (ticket : Nat) (shared : Shared Url) :
    TaskStep Url :=
  match input with
  | .web web _ =>
    some (afterDownload shared (fun data => .working url ticket (.updatingDelay data))
      (getDomainData crates web url defaultAgentName))
  | _ => none

/-- A delay that does not convert is a panic. -/
def updateDelayTask (input : Input Url) (url : Url) (ticket : Nat) (data : DomainData)
    (shared : Shared Url) : TaskStep Url :=
  match input, data.delay.toDuration with
  | .proceed, some delay =>
    some ({ shared with
        limiter := shared.limiter.updateDelay data.domainString delay shared.clock },
      .working url ticket (.savingDomain data))
  | .proceed, none => some (shared, .dropping true)
  | _, _ => none

def saveDomainTask (input : Input Url) (url : Url) (ticket : Nat) (data : DomainData)
    (shared : Shared Url) : TaskStep Url :=
  match input with
  | .redis call =>
    let event := ParsedData.parsedDomain (DomainDataSaveData.fromDomainData data)
    some ({ shared with service := publishEvent crates shared.service event call },
      if call = .answered then .working url ticket (.inserting [] []) else .dropping false)
  | _ => none

def awaitTask (input : Input Url) (url : Url) (ticket : Nat) (domain : String)
    (shared : Shared Url) : TaskStep Url :=
  match input with
  | .proceed => some (shared, .working url ticket (.sleeping domain shared.clock))
  | _ => none

def sleepTask (input : Input Url) (url : Url) (ticket : Nat) (domain : String) (stamp : Instant)
    (shared : Shared Url) : TaskStep Url :=
  match input with
  | .proceed =>
    some ({ shared with limiter := (shared.limiter.awaitAcquiring domain stamp).2 },
      .working url ticket (.askingSitemapDelay domain))
  | _ => none

/-- A delay that cannot be asked for ends the task. -/
def askDelayTask (input : Input Url) (domain : String) (go : Worker Url) (shared : Shared Url) :
    TaskStep Url :=
  (rpc shared.service input (serveDelay crates domain)).map fun answer =>
    ({ shared with service := answer.2 },
      match answer.1 with
      | .ok _ => go
      | .error _ => .dropping false)

def fetchSitemapTask (input : Input Url) (url : Url) (ticket : Nat) (shared : Shared Url) :
    TaskStep Url :=
  match input with
  | .web web _ =>
    some (afterDownload (shared.noteDownload url)
      (fun links => .working url ticket (.inserting (sortedLinks crates links) []))
      (SitemapsParser.parse crates web [crates.url.asStr url]))
  | _ => none

def fetchPageTask (input : Input Url) (url : Url) (ticket : Nat) (decided : CrawlerStorage Url)
    (shared : Shared Url) : TaskStep Url :=
  match input with
  | .web web keywordsFile =>
    some (afterDownload ((shared.noteDownload url).notePageGrant ticket)
      (fun data =>
        let parsed := ParsedPage.parse crates keywordsFile data
        if parsed.1 then .working url ticket (.savingPage parsed.2 decided)
        else .working url ticket (.inserting (sortedLinks crates parsed.2.outboundLinks) []))
      (getPage crates web url))
  | _ => none

def savePageTask (input : Input Url) (url : Url) (ticket : Nat) (page : ParsedPage Url)
    (decided : CrawlerStorage Url) (shared : Shared Url) : TaskStep Url :=
  match input with
  | .redis call =>
    let data := convertParsedPageToSaveData crates page
    let service := publishEvent crates shared.service (.parsedPage data) call
    some (if call = .failed then shared else shared.notePublished ⟨data, decided⟩ service,
      if call = .answered then .working url ticket (.countingPage page.outboundLinks)
      else .dropping false)
  | _ => none

def countPageTask (input : Input Url) (url : Url) (ticket : Nat) (links : List Url)
    (shared : Shared Url) : TaskStep Url :=
  match input with
  | .proceed =>
    some ({ shared with pagesCrawled := shared.pagesCrawled + 1 },
      .working url ticket (.inserting (sortedLinks crates links) []))
  | _ => none

/-- A link that cannot be asked for is left out. Without new links the guard is dropped. -/
def insertTask (input : Input Url) (url : Url) (ticket : Nat) (links : List Url)
    (filtered : List String) (shared : Shared Url) : TaskStep Url :=
  match links, input with
  | [], .proceed =>
    some (shared,
      if filtered = [] then .dropping false else .working url ticket (.pushing 1 filtered))
  | [], _ => none
  | link :: rest, input =>
    (rpc shared.service input (serveInsert crates (crates.url.asStr link))).map fun answer =>
      ({ shared with service := answer.2 },
        match answer.1 with
        | .ok false => .working url ticket (.inserting rest (filtered ++ [crates.url.asStr link]))
        | _ => .working url ticket (.inserting rest filtered))

/-- The third failed attempt ends the worker. -/
def pushTask (input : Input Url) (url : Url) (ticket attempt : Nat) (filtered : List String)
    (shared : Shared Url) : TaskStep Url :=
  match input with
  | .redis call =>
    some ({ shared with service := pushTasks shared.service filtered call },
      if call = .answered then .working url ticket (.adding filtered.length)
      else if attempt = pushAttempts then .dropping true
      else .working url ticket (.pushing (attempt + 1) filtered))
  | _ => none

def addTask (input : Input Url) (count : Nat) (shared : Shared Url) : TaskStep Url :=
  match input with
  | .proceed =>
    some ({ shared with activeTasks := shared.activeTasks + BitVec.ofNat 64 count },
      .dropping false)
  | _ => none

def taskStep (input : Input Url) (url : Url) (ticket : Nat) (shared : Shared Url) :
    Task Url → TaskStep Url
  | .checking => checkTask crates input url ticket shared
  | .fetchingRobots => fetchRobotsTask crates input url ticket shared
  | .updatingDelay data => updateDelayTask input url ticket data shared
  | .savingDomain data => saveDomainTask crates input url ticket data shared
  | .awaiting domain => awaitTask input url ticket domain shared
  | .sleeping domain stamp => sleepTask input url ticket domain stamp shared
  | .askingSitemapDelay domain =>
    askDelayTask crates input domain (.working url ticket .fetchingSitemap) shared
  | .fetchingSitemap => fetchSitemapTask crates input url ticket shared
  | .askingDelay host decided =>
    askDelayTask crates input host (.working url ticket (.fetchingPage decided)) shared
  | .fetchingPage decided => fetchPageTask crates input url ticket decided shared
  | .savingPage page decided => savePageTask crates input url ticket page decided shared
  | .countingPage links => countPageTask crates input url ticket links shared
  | .inserting links filtered => insertTask crates input url ticket links filtered shared
  | .pushing attempt filtered => pushTask input url ticket attempt filtered shared
  | .adding count => addTask input count shared

/-! ### The steps of a worker -/

/-- `pop_front`. An entry that does not parse is an error, and so is a lost reply: the entry is
gone either way. -/
def popStep (call : Call) (shared : Shared Url) : Shared Url × Worker Url :=
  match call, shared.service.queue.popFront with
  | .failed, _ => (shared, .exited)
  | _, none => (shared, .exited)
  | .lost, some (_, queue) =>
    ({ shared with service := { shared.service with queue } }, .exited)
  | .answered, some (text, queue) =>
    ({ shared with service := { shared.service with queue } },
      match crates.url.parse text with
      | .ok url => .arrived url
      | .error _ => .exited)

def acquireStep (url : Url) (domain : String) (stamp : Instant) (shared : Shared Url) :
    Shared Url × Worker Url :=
  let acquired := shared.limiter.tryAcquire domain stamp
  if acquired.1 then
    let grant : Grant := ⟨domain, stamp, storedDelay shared.service.storage.db domain⟩
    ({ shared with
        limiter := acquired.2
        journal := { shared.journal with grants := shared.journal.grants ++ [grant] } },
      .working url shared.journal.grants.length .checking)
  else ({ shared with limiter := acquired.2 }, .requeueing url)

/-- `active_tasks.fetch_sub(1)` -/
def Shared.release (shared : Shared Url) : Shared Url :=
  { shared with activeTasks := shared.activeTasks - 1 }

def workerStep (input : Input Url) (shared : Shared Url) : Worker Url → TaskStep Url
  | .atLoop =>
    match input with
    | .proceed => some (shared, if shared.cancelled then .exited else .popping)
    | _ => none
  | .popping =>
    match input with
    | .redis call => some (popStep crates call shared)
    | _ => none
  | .arrived url =>
    match input with
    | .proceed => some (shared,
        match crates.url.domain url with
        | none => .stray
        | some domain => .acquiring url domain shared.clock)
    | _ => none
  | .acquiring url domain stamp =>
    match input with
    | .proceed => some (acquireStep url domain stamp shared)
    | _ => none
  | .requeueing url =>
    match input with
    | .redis call => some ({ shared with
          service := pushTasks shared.service [crates.url.asStr url] call },
        if call = .answered then .atLoop else .releasing)
    | _ => none
  | .stray | .releasing =>
    match input with
    | .proceed => some (shared.release, .atLoop)
    | _ => none
  | .working url ticket task => taskStep crates input url ticket shared task
  | .dropping ends =>
    match input with
    | .proceed => some (shared.release, if ends then .exited else .atLoop)
    | _ => none
  | .exited => none

end Steps

/-! ### The crawl -/

/-- A crawl with `n` workers. -/
structure Crawler (Url : Type) (n : Nat) where
  shared : Shared Url
  workers : Fin n → Worker Url
  monitoring : Bool

inductive CrawlerAction (Url : Type) (n : Nat)
  | worker (id : Fin n) (input : Input Url)
  | service (action : ServiceAction Url)
  | monitor
  | interrupt
  | tick (elapsed : Duration)

section Crawl

variable {Url : Type} [DecidableEq Url] (crates : Crates Url) {n : Nat}

/-- One round of the monitor loop of `run`. -/
def monitorStep (limit : Option (BitVec 64)) (crawler : Crawler Url n) : Crawler Url n :=
  if crawler.shared.cancelled then { crawler with monitoring := false }
  else if crawler.shared.activeTasks = 0 ∨
      limit.any (fun limit => limit ≤ crawler.shared.pagesCrawled) = true then
    { crawler with monitoring := false, shared := { crawler.shared with cancelled := true } }
  else crawler

def crawlerStep (limit : Option (BitVec 64)) :
    CrawlerAction Url n → Crawler Url n → Option (Crawler Url n)
  | .worker id input, crawler =>
    (workerStep crates input crawler.shared (crawler.workers id)).map fun moved =>
      { crawler with shared := moved.1, workers := Function.update crawler.workers id moved.2 }
  | .service action, crawler =>
    (serviceStep crates action crawler.shared.service).map fun service =>
      { crawler with shared := { crawler.shared with service } }
  | .monitor, crawler => if crawler.monitoring then some (monitorStep limit crawler) else none
  | .interrupt, crawler => some { crawler with shared := { crawler.shared with cancelled := true } }
  | .tick elapsed, crawler =>
    some { crawler with shared := { crawler.shared with clock := crawler.shared.clock + elapsed } }

/-- `insert_url` on each URL. -/
def insertAllUrls (service : StorageService Url) (urls : List Url) : StorageService Url :=
  { service with
    storage := urls.foldl (fun storage url => (storage.insertUrlInSeenUrls crates url).2)
      service.storage }

/-- The start of `run`: with a start URL, from the seed file, or with the queue as it is. Returns
the service and the number of tasks, and nothing when `run` returns without starting workers.
`insertFails` says which `insert_url` calls fail. -/
def startUp (startUrl : Option String) (seed : String) (insertFails : Url → Bool)
    (service : StorageService Url) : Option (StorageService Url × Nat) :=
  match startUrl, service.queue.waiting with
  | some text, _ =>
    match crates.url.parse text with
    | .error _ => none
    | .ok url =>
      if insertFails url then none
      else some (insertAllUrls crates { service with queue := ⟨[crates.url.asStr url], []⟩ } [url], 1)
  | none, [] =>
    let filtered := (splitWhitespace crates.unicode seed).filter fun text =>
      (crates.url.parse text).isOk
    let inserted := (filtered.filterMap fun text => (crates.url.parse text).toOption).filter
      fun url => !insertFails url
    if filtered = [] then none
    else some (insertAllUrls crates { service with queue := ⟨filtered, []⟩ } inserted, filtered.length)
  | none, _ :: _ => some (service, service.queue.waiting.length)

/-- The crawl after its start: every worker is at its loop, and what waits in the queue is what
has been pushed. -/
def Crawler.begin (clock : Instant) (started : StorageService Url × Nat) : Crawler Url n where
  shared := {
    service := { started.1 with
      queue := ⟨started.1.queue.waiting, started.1.queue.waiting⟩ }
    activeTasks := BitVec.ofNat 64 started.2
    pagesCrawled := 0
    limiter := DomainRateLimiter.new (10 ^ 9)
    cancelled := false
    clock
    journal := Journal.empty }
  workers _ := .atLoop
  monitoring := true

end Crawl

/-! ### The sample web -/

/-- The page about the first site is a redirect to its secret page, and its home page links to the
second site. No site has a robots.txt. -/
def sampleWeb : Web SampleUrl := fun _ url =>
  match url with
  | .about => .redirect .secret
  | .home => .answer ⟨200, some (some "text/html"), some "<a href=\"https://b.example/\"></a>"⟩
  | .secret | .other => .answer ⟨200, some (some "text/html"), some ""⟩
  | .robots | .otherRobots => .answer ⟨404, none, some ""⟩

/-- The start of a crawl beside a storage service that runs on a database. -/
def sampleStart (db : CrawlerDb) (seed : String) : Option (StorageService SampleUrl × Nat) :=
  startUp sampleCrates none seed (fun _ => false) {
    StorageService.initial db defaultAgentName with
    log := GroupedLog.empty.createGroup
    consumer := .reading }

/-- A worker takes a URL, is granted its domain and asks whether it is allowed. -/
def sampleTake : List (Input SampleUrl) :=
  [.proceed, .redis .answered, .proceed, .proceed, .rpc DbFaults.none .answered]

/-- The worker asks for the delay, downloads the page, publishes and counts it. -/
def samplePageTask : List (Input SampleUrl) :=
  [.rpc DbFaults.none .answered, .web sampleWeb none, .redis .answered, .proceed]

/-- The worker crawls the home page, pushes its link, crawls the page of the link and finds nothing
more to do. -/
def sampleSearch : List (CrawlerAction SampleUrl 1) :=
  (sampleTake ++ samplePageTask ++
    [Input.rpc DbFaults.none .answered, .proceed, .redis .answered, .proceed, .proceed] ++
    sampleTake ++ samplePageTask ++
    [Input.proceed, .proceed, .proceed, .redis .answered]).map (.worker (Fin.last 0))

end PoliteCrawler
