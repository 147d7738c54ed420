/-
This file proves where everything that a deployment handles comes from.

A URL is discovered when it is a seed, when the page of a discovered URL links to
it, when the sitemap of a discovered URL lists it, or when the robots.txt of the
site of a discovered URL names it as a sitemap. A page event is read off when it
is what `ParsedPage::parse` makes of a document that was downloaded for a
discovered URL, and that a keywords file of the world lets through.

Everything the workers, the launch, the queue, the stream and the consumer hold
is discovered or read off, over any interleaving, with failing calls and
restarts. So the crawler asks for no URL that nothing leads to, and every row of
the pages table that was not there before shows what the parser read off a
document, under the id of the domain of its URL and with the hash of its text.
-/

import PoliteCrawler.CanonicalFrontier
import PoliteCrawler.DatabaseReplay

namespace PoliteCrawler

variable {Url : Type}

/-! ### The world -/

/-- What is outside of the deployment: what the network may answer, the keywords files that a parser
may find, the texts a launch may start with, and the agent that the storage service runs as. -/
structure World (Url : Type) where
  webs : Set (Web Url)
  keywordsFiles : Set (Option String)
  seeds : Set String
  agent : String

section World

variable [DecidableEq Url] (crates : Crates Url) (world : World Url)

/-- The URLs that something leads to. -/
inductive Discovered : Url → Prop
  | seed {text : String} {url : Url} (listed : text ∈ world.seeds)
      (parsed : crates.url.parse text = .ok url) : Discovered url
  | link {page link : Url} {web : Web Url} {data : NotParsedPageData Url}
      (known : Discovered page) (answers : web ∈ world.webs)
      (got : getPage crates web page = .ok data)
      (lists : link ∈ outboundUrls crates data.url (crates.parseDocument data.content)) :
      Discovered link
  | entry {sitemap link : Url} {web : Web Url} {links : List Url}
      (known : Discovered sitemap) (answers : web ∈ world.webs)
      (got : SitemapsParser.parse crates web [crates.url.asStr sitemap] = .ok links)
      (lists : link ∈ links) : Discovered link
  | sitemap {url sitemap : Url} {web : Web Url} {data : DomainData} {body text : String}
      {robot : Robot} (known : Discovered url) (answers : web ∈ world.webs)
      (got : getDomainData crates web url defaultAgentName = .ok data)
      (has : data.robots = some body) (rules : crates.robotNew world.agent body = some robot)
      (names : text ∈ robot.sitemaps) (parsed : crates.url.parse text = .ok sitemap) :
      Discovered sitemap

/-- A text that is no URL, or a discovered one. -/
def KnownText (text : String) : Prop :=
  ∀ url, crates.url.parse text = .ok url → Discovered crates world url

/-- A robots.txt that names only discovered sitemaps. -/
def KnownRobots (robots : Option String) : Prop :=
  ∀ body robot, robots = some body → crates.robotNew world.agent body = some robot →
    ∀ text ∈ robot.sitemaps, KnownText crates world text

/-- What the parser makes of a document that was downloaded for a discovered URL and that the
keywords let through. -/
def ReadOff (page : ParsedPage Url) : Prop :=
  ∃ url web keywordsFile data, Discovered crates world url ∧ web ∈ world.webs ∧
    keywordsFile ∈ world.keywordsFiles ∧ getPage crates web url = .ok data ∧
    ParsedPage.parse crates keywordsFile data = (true, page)

/-- What a domain's robots.txt was found to be, for a discovered URL of the domain. -/
def FetchedFor (data : DomainData) : Prop :=
  ∃ url web, Discovered crates world url ∧ web ∈ world.webs ∧
    getDomainData crates web url defaultAgentName = .ok data

/-! ### What the parties hold -/

/-- An event about a site with discovered sitemaps, or of a page that was read off. -/
def KnownEvent : ParsedData → Prop
  | .parsedDomain data => KnownRobots crates world data.robots
  | .parsedPage page =>
    ∃ parsed, ReadOff crates world parsed ∧ page = convertParsedPageToSaveData crates parsed

def KnownEntry (entry : StreamEntry) : Prop :=
  ∀ event, eventOf crates entry = some event → KnownEvent crates world event

def Task.Known : Task Url → Prop
  | .updatingDelay data => FetchedFor crates world data
  | .savingDomain data => FetchedFor crates world data ∧ data.delay.toDuration ≠ none
  | .savingPage page _ => ReadOff crates world page
  | .countingPage links => ∀ link ∈ links, Discovered crates world link
  | .inserting links filtered =>
    (∀ link ∈ links, Discovered crates world link) ∧ ∀ text ∈ filtered, KnownText crates world text
  | .pushing _ filtered => ∀ text ∈ filtered, KnownText crates world text
  | _ => True

def Worker.Known : Worker Url → Prop
  | .arrived url | .acquiring url _ _ | .requeueing url => Discovered crates world url
  | .working url _ task => Discovered crates world url ∧ task.Known crates world
  | _ => True

def Consumer.Known : Consumer → Prop
  | .offering _ sitemaps _ => ∀ text ∈ sitemaps, KnownText crates world text
  | .pushing _ sitemap _ sitemaps _ => ∀ text ∈ sitemap :: sitemaps, KnownText crates world text
  | _ => True

def Launch.Known : Launch Url → Prop
  | .checking startUrl seed => (∀ text, startUrl = some text → text ∈ world.seeds) ∧
      ∀ file, seed = some file → ∀ text ∈ seedTexts crates file, text ∈ world.seeds
  | .cleaning startUrl => startUrl ∈ world.seeds
  | .pushing url | .marking url => Discovered crates world url
  | .seeding left filtered => ∀ text ∈ left ++ filtered, text ∈ world.seeds
  | _ => True

/-- The row is that of a page that was read off. -/
def KnownRow (db : CrawlerDb) (row : PageRow) : Prop :=
  ∃ parsed, ReadOff crates world parsed ∧
    RowOf crates db (convertParsedPageToSaveData crates parsed) row

/-- Everything in and around the storage service is known, but for the rows that were there. -/
structure StorageService.Known (old : List PageRow) (service : StorageService Url) : Prop where
  agent : service.storage.agentName = world.agent
  fit : CacheIdentifies service.storage
  queue : ∀ text ∈ service.queue.waiting, KnownText crates world text
  consumer : service.consumer.Known crates world
  pending : ∀ entry ∈ service.pending, KnownEntry crates world entry
  pages : ∀ row ∈ service.storage.db.pages.rows,
    row ∈ old ∨ KnownRow crates world service.storage.db row

/-- Everything in a deployment is known. -/
structure Deployment.Known {n : Nat} (old : List PageRow) (deployment : Deployment Url n) :
    Prop where
  service : deployment.crawler.shared.service.Known crates world old
  workers : ∀ id, (deployment.crawler.workers id).Known crates world
  launch : deployment.launch.Known crates world
  downloaded : ∀ url ∈ deployment.crawler.shared.journal.downloaded, Discovered crates world url

/-- A download is answered by the world, and the parser finds a keywords file of it. -/
def World.answers : Input Url → Prop
  | .web web keywordsFile => web ∈ world.webs ∧ keywordsFile ∈ world.keywordsFiles
  | _ => True

end World

/-! ### What is discovered -/

section Discovering

variable [DecidableEq Url] {crates : Crates Url} {world : World Url}

theorem KnownText.asStr {url : Url} (known : Discovered crates world url) :
    KnownText crates world (crates.url.asStr url) := by
  intro other parsed
  rw [crates.url.parse_asStr url] at parsed
  exact Except.ok.inj parsed ▸ known

/-- The links of a page that is read off are discovered. -/
theorem ReadOff.links {page : ParsedPage Url} (read : ReadOff crates world page) :
    ∀ link ∈ page.outboundLinks, Discovered crates world link := by
  obtain ⟨url, web, keywordsFile, data, known, answers, _, got, parsed⟩ := read
  intro link member
  have lists : (ParsedPage.parse crates keywordsFile data).2.outboundLinks =
      outboundUrls crates data.url (crates.parseDocument data.content) :=
    parse_outboundLinks keywordsFile data
  rw [parsed] at lists
  rw [lists] at member
  exact .link known answers got member

/-- The robots.txt that was fetched for a discovered URL names discovered sitemaps. -/
theorem FetchedFor.robots {data : DomainData} (fetched : FetchedFor crates world data) :
    KnownRobots crates world data.robots := by
  obtain ⟨url, web, known, answers, got⟩ := fetched
  intro body robot has rules text names sitemap parsed
  exact .sitemap known answers got has rules names parsed

theorem knownEntry_page (readBack : EventsReadBack crates) {page : ParsedPage Url}
    (read : ReadOff crates world page) :
    KnownEntry crates world
      (some (crates.toJson (.parsedPage (convertParsedPageToSaveData crates page)))) := by
  intro event decoded
  obtain ⟨_, _, keywordsFile, data, _, _, _, _, parsed⟩ := id read
  have reads := readBack.page keywordsFile data
  rw [parsed] at reads
  obtain rfl : ParsedData.parsedPage (convertParsedPageToSaveData crates page) = event :=
    Option.some.inj (reads.symm.trans decoded)
  exact ⟨page, read, rfl⟩

theorem knownEntry_domain (readBack : EventsReadBack crates) {data : DomainData}
    (fetched : FetchedFor crates world data) (converts : data.delay.toDuration ≠ none) :
    KnownEntry crates world
      (some (crates.toJson (.parsedDomain (DomainDataSaveData.fromDomainData data)))) := by
  intro event decoded
  obtain ⟨url, web, _, _, got⟩ := id fetched
  obtain ⟨delay, _, reads⟩ := readBack.domain web url data got converts
  obtain rfl := Option.some.inj (reads.symm.trans decoded)
  exact fetched.robots

end Discovering

/-! ### Steps around the storage service -/

section Around

variable [DecidableEq Url] {crates : Crates Url} {world : World Url} {old : List PageRow}
  {service next : StorageService Url}

/-- A step that adds nothing keeps everything known. -/
theorem StorageService.Known.fewer (known : service.Known crates world old)
    (agent : next.storage.agentName = service.storage.agentName)
    (fit : CacheIdentifies next.storage) (queue : next.queue.waiting ⊆ service.queue.waiting)
    (consumer : next.consumer.Known crates world) (pending : next.pending ⊆ service.pending)
    (db : next.storage.db = service.storage.db) : next.Known crates world old where
  agent := agent.trans known.agent
  fit := fit
  queue text member := known.queue text (queue member)
  consumer := consumer
  pending entry member := known.pending entry (pending member)
  pages := by
    rw [db]
    exact known.pages

theorem StorageService.Known.looked (known : service.Known crates world old) {request : Lookup Url}
    {storage : CrawlerStorage Url} (lookup : storage = service.storage.afterLookup crates request) :
    StorageService.Known crates world old { service with storage } := by
  obtain ⟨_, _, _, state⟩ := afterLookup_state crates service.storage request
  have stepped : storageStep crates (.lookup request) service.storage = some storage := by
    rw [lookup]
    rfl
  have fit := storageStep_cacheIdentifies crates known.fit stepped
  rw [lookup, state] at fit ⊢
  exact ⟨known.agent, fit, known.queue, known.consumer, known.pending, known.pages⟩

theorem LookedUp.known (looked : LookedUp crates service next)
    (known : service.Known crates world old) : next.Known crates world old := by
  rcases looked with rfl | ⟨request, rfl⟩
  · exact known
  · exact known.looked rfl

theorem StorageService.Known.pushTasks (known : service.Known crates world old)
    {texts : List String} (found : ∀ text ∈ texts, KnownText crates world text) (call : Call) :
    (PoliteCrawler.pushTasks service texts call).Known crates world old := by
  unfold PoliteCrawler.pushTasks
  split
  · exact known
  · refine ⟨known.agent, known.fit, fun text member => ?_, known.consumer, known.pending,
      known.pages⟩
    exact (List.mem_append.mp member).elim (known.queue text) (found text)

theorem StorageService.Known.append (known : service.Known crates world old) {entry : StreamEntry}
    (found : KnownEntry crates world entry) :
    StorageService.Known crates world old { service with log := service.log.append entry } := by
  refine ⟨known.agent, known.fit, known.queue, known.consumer, fun other member => ?_, known.pages⟩
  rcases service.mem_pending_append member with before | rfl
  · exact known.pending other before
  · exact found

theorem StorageService.Known.publishEvent (known : service.Known crates world old)
    {event : ParsedData} (entry : KnownEntry crates world (some (crates.toJson event)))
    (call : Call) :
    (PoliteCrawler.publishEvent crates service event call).Known crates world old := by
  unfold PoliteCrawler.publishEvent
  split
  · exact known
  · exact known.append entry

end Around

/-! ### The steps of a worker -/

section Workers

variable [DecidableEq Url] {crates : Crates Url} {world : World Url} {old : List PageRow}
  {shared next : Shared Url} {url : Url} {ticket : Nat} {input : Input Url}

/-- A page that is to be saved is read off. -/
theorem fetchPageTask_known {decided : CrawlerStorage Url} {worker : Worker Url}
    (moved : fetchPageTask crates input url ticket decided shared = some (next, worker))
    (answers : world.answers input)
    (known : Discovered crates world url) : worker.Known crates world := by
  cases input with
  | web web keywordsFile =>
    obtain ⟨answered, finds⟩ : web ∈ world.webs ∧ keywordsFile ∈ world.keywordsFiles := answers
    cases got : getPage crates web url with
    | error abort =>
      simp only [fetchPageTask, got] at moved
      cases abort <;> cases moved <;> trivial
    | ok data =>
      have links : ∀ link ∈ (ParsedPage.parse crates keywordsFile data).2.outboundLinks,
          Discovered crates world link := by
        rw [parse_outboundLinks]
        exact fun link lists => .link known answered got lists
      simp only [fetchPageTask, got, afterDownload, Option.some.injEq, Prod.mk.injEq] at moved
      obtain ⟨_, rfl⟩ := moved
      cases saves : (ParsedPage.parse crates keywordsFile data).1 with
      | true =>
        exact ⟨known, url, web, keywordsFile, data, known, answered, finds, got,
          Prod.ext saves rfl⟩
      | false =>
        exact ⟨known, fun link member => links link (mem_of_mem_sortedLinks member),
          List.forall_mem_nil _⟩
  | _ => cases moved

/-- A task that downloads no page goes on with what is known. -/
theorem TaskMoved.known {task : Task Url} {worker : Worker Url}
    (moved : TaskMoved crates url ticket shared task input next worker)
    (other : ∀ decided, task ≠ .fetchingPage decided)
    (answers : world.answers input)
    (known : Discovered crates world url) (held : task.Known crates world) :
    worker.Known crates world := by
  cases moved with
  | robotsFetched got => exact ⟨known, url, _, known, answers.1, got⟩
  | delayUpdated converts =>
    refine ⟨known, held, ?_⟩
    rw [converts]
    exact Option.some_ne_none _
  | domainSaved goesOn =>
    rcases goesOn with rfl | ⟨_, rfl⟩
    · exact ⟨known, List.forall_mem_nil _, List.forall_mem_nil _⟩
    · trivial
  | sitemapDelayAsked _ goesOn | delayAsked _ goesOn =>
    rcases goesOn with rfl | ⟨_, rfl⟩
    · exact ⟨known, trivial⟩
    · trivial
  | sitemapFetched got =>
    refine ⟨known, fun link member => ?_, List.forall_mem_nil _⟩
    exact .entry known answers.1 got (mem_of_mem_sortedLinks member)
  | pageSaved _ goesOn =>
    rcases goesOn with rfl | ⟨_, rfl⟩
    · exact ⟨known, ReadOff.links held⟩
    · trivial
  | pageCounted =>
    exact ⟨known, fun link member => held link (mem_of_mem_sortedLinks member),
      List.forall_mem_nil _⟩
  | linkInserted _ goesOn =>
    have rest := fun link member => held.1 link (List.mem_cons_of_mem _ member)
    rcases goesOn with rfl | rfl
    · refine ⟨known, rest, fun text member => ?_⟩
      rcases List.mem_append.mp member with before | added
      · exact held.2 text before
      · rw [List.mem_singleton.mp added]
        exact KnownText.asStr (held.1 _ List.mem_cons_self)
    · exact ⟨known, rest, held.2⟩
  | someFound _ => exact ⟨known, held.2⟩
  | pushFailed _ goesOn =>
    rcases goesOn with ⟨_, rfl⟩ | rfl
    · trivial
    · exact ⟨known, held⟩
  | pageFetched | pageFailed => exact absurd rfl (other _)
  | checkedUnknown | checkedSitemap | checkedPage | awaited | slept | pushed =>
    exact ⟨known, trivial⟩
  | _ => trivial

theorem taskStep_known {task : Task Url} {worker : Worker Url}
    (moved : taskStep crates input url ticket shared task = some (next, worker))
    (answers : world.answers input)
    (known : Discovered crates world url) (held : task.Known crates world) :
    worker.Known crates world := by
  cases task with
  | fetchingPage decided => exact fetchPageTask_known moved answers known
  | _ => exact (taskStep_moved moved).known (fun _ same => by cases same) answers known held

/-- A worker takes from the queue what is known. -/
theorem WorkerMoved.known {worker after : Worker Url}
    (moved : WorkerMoved crates shared worker input next after)
    (outside : ∀ url ticket task, worker ≠ .working url ticket task)
    (queue : ∀ text ∈ shared.service.queue.waiting, KnownText crates world text)
    (held : worker.Known crates world) : after.Known crates world := by
  cases moved with
  | looped goesOn => rcases goesOn with rfl | rfl <;> trivial
  | popped waiting parsed => exact queue _ (waiting ▸ List.mem_cons_self) _ parsed
  | stamped _ | refused => exact held
  | granted _ => exact ⟨held, trivial⟩
  | released owed => rcases owed with ⟨_, rfl⟩ | ⟨_, rfl⟩ | ⟨_, _, rfl | rfl⟩ <;> trivial
  | task _ => exact absurd rfl (outside _ _ _)
  | _ => trivial

theorem workerStep_known {worker after : Worker Url}
    (moved : workerStep crates input shared worker = some (next, after))
    (answers : world.answers input)
    (queue : ∀ text ∈ shared.service.queue.waiting, KnownText crates world text)
    (held : worker.Known crates world) : after.Known crates world := by
  cases worker with
  | working url ticket task => exact taskStep_known moved answers held.1 held.2
  | _ => exact (workerStep_moved moved).known (fun _ _ _ same => by cases same) queue held

theorem StorageService.Known.dequeue (known : shared.service.Known crates world old)
    {text : String} {rest : List String} (waiting : shared.service.queue.waiting = text :: rest) :
    (shared.dequeue rest).service.Known crates world old := by
  refine known.fewer rfl known.fit (fun other member => ?_) known.consumer (List.Subset.refl _) rfl
  rw [waiting]
  exact List.mem_cons_of_mem _ member

/-- What a task adds to the queue, to the stream and to the journal is known. -/
theorem TaskMoved.knownAround {task : Task Url} {worker : Worker Url}
    (moved : TaskMoved crates url ticket shared task input next worker)
    (readBack : EventsReadBack crates) (known : Discovered crates world url)
    (held : task.Known crates world) (service : shared.service.Known crates world old)
    (downloaded : ∀ url ∈ shared.journal.downloaded, Discovered crates world url) :
    next.service.Known crates world old ∧
      ∀ url ∈ next.journal.downloaded, Discovered crates world url := by
  have noted : ∀ other ∈ url :: shared.journal.downloaded, Discovered crates world other :=
    List.forall_mem_cons.mpr ⟨known, downloaded⟩
  cases moved with
  | checkFailed looked _ | checkedStray looked _ | checkedUnknown looked _
  | checkedDisallowed looked | checkedSitemap looked | checkedPage looked _
  | sitemapDelayAsked looked _ | delayAsked looked _ | linkInserted looked _ =>
    exact ⟨looked.known service, downloaded⟩
  | domainSaved _ =>
    exact ⟨service.publishEvent (knownEntry_domain readBack held.1 held.2) _, downloaded⟩
  | sitemapFetched _ | sitemapFailed | pageFetched _ _ | pageFailed => exact ⟨service, noted⟩
  | pageSaved _ _ => exact ⟨service.publishEvent (knownEntry_page readBack held) _, downloaded⟩
  | pushed => exact ⟨service.pushTasks held .answered, downloaded⟩
  | pushFailed _ _ => exact ⟨service.pushTasks held _, downloaded⟩
  | _ => exact ⟨service, downloaded⟩

theorem WorkerMoved.knownAround {worker after : Worker Url}
    (moved : WorkerMoved crates shared worker input next after) (readBack : EventsReadBack crates)
    (held : worker.Known crates world) (service : shared.service.Known crates world old)
    (downloaded : ∀ url ∈ shared.journal.downloaded, Discovered crates world url) :
    next.service.Known crates world old ∧
      ∀ url ∈ next.journal.downloaded, Discovered crates world url := by
  have back : ∀ {url : Url}, Discovered crates world url →
      ∀ text ∈ [crates.url.asStr url], KnownText crates world text :=
    fun known => List.forall_mem_singleton.mpr (KnownText.asStr known)
  cases moved with
  | popLost waiting | popUnparsed waiting _ | popped waiting _ =>
    exact ⟨service.dequeue waiting, downloaded⟩
  | requeued => exact ⟨service.pushTasks (back held) .answered, downloaded⟩
  | requeueFailed _ => exact ⟨service.pushTasks (back held) _, downloaded⟩
  | task moved => exact moved.knownAround readBack held.1 held.2 service downloaded
  | _ => exact ⟨service, downloaded⟩

end Workers

/-! ### The steps of the storage service -/

section Service

variable [DecidableEq Url] {crates : Crates Url} {world : World Url} {old : List PageRow}
  {service next : StorageService Url} {action : ServiceAction Url}

omit [DecidableEq Url] in
/-- The sitemaps of a cached domain are those its robots.txt names. -/
theorem getSitemaps_addDomain {cache : DomainCache} {domain agent text : String} {id : Int}
    {robots : Option String} {delay : F32} {entry : CachedData}
    (built : CachedData.new crates id robots delay agent = .ok entry)
    (member : text ∈ (cache.addDomain domain entry).getSitemaps domain) :
    ∃ body robot, robots = some body ∧ crates.robotNew agent body = some robot ∧
      text ∈ robot.sitemaps := by
  rw [DomainCache.getSitemaps, DomainCache.addDomain_self, Option.bind_some] at member
  have parsed : parseRobot crates robots agent = .ok entry.robot := by
    unfold CachedData.new at built
    split at built
    · cases built
    · rename_i found
      split at built
      · cases built
        exact found
      · cases built
  cases robots with
  | none =>
    obtain none := Except.ok.inj parsed
    rw [← none] at member
    cases member
  | some body =>
    cases rules : crates.robotNew agent body with
    | none =>
      simp only [parseRobot, rules] at parsed
      cases parsed
    | some robot =>
      simp only [parseRobot, rules, Except.ok.injEq] at parsed
      rw [← parsed] at member
      exact ⟨body, robot, rfl, rules, member⟩

/-- An event that is written leaves known rows. -/
theorem knownRows_applied {db next : CrawlerDb} {event : ParsedData}
    (applied : applyEvent crates event db = some next) (event : KnownEvent crates world event)
    (pages : ∀ row ∈ db.pages.rows, row ∈ old ∨ KnownRow crates world db row) :
    ∀ row ∈ next.pages.rows, row ∈ old ∨ KnownRow crates world next row := by
  intro row member
  have found : next.pages.find? row.url = some row :=
    next.pages.find?_eq_some_iff.mpr ⟨member, rfl⟩
  rcases applyEvent_page applied row.url with ⟨page, written, rfl, _, rowOf, stored⟩ | ⟨_, kept⟩
  · obtain rfl : row = written := Option.some.inj (found.symm.trans stored)
    obtain ⟨parsed, read, rfl⟩ := event
    exact Or.inr ⟨parsed, read, rowOf⟩
  · have before : row ∈ db.pages.rows := (db.pages.find?_eq_some_iff.mp (kept ▸ found)).1
    refine (pages row before).imp_right ?_
    rintro ⟨parsed, read, rowOf⟩
    exact ⟨parsed, read, rowOf.applied applied⟩

/-- Saving a known event leaves known rows, whether it is written or not. -/
theorem Saved.knownRows {before after : CrawlerStorage Url} {faults : DbFaults}
    {event : ParsedData} {result : Outcome (List String)}
    (saved : Saved crates before faults event result after)
    (event : KnownEvent crates world event) (fit : CacheIdentifies before)
    (pages : ∀ row ∈ before.db.pages.rows, row ∈ old ∨ KnownRow crates world before.db row) :
    ∀ row ∈ after.db.pages.rows, row ∈ old ∨ KnownRow crates world after.db row := by
  cases written : PoliteCrawler.writes crates before.dedup faults result _ with
  | true => exact knownRows_applied (saved.applied fit written) event pages
  | false =>
    rw [saved.unapplied written]
    exact pages

/-- Saving a known event answers with known sitemaps. -/
theorem Saved.knownSitemaps {before after : CrawlerStorage Url} {faults : DbFaults}
    {event : ParsedData} {sitemaps : List String}
    (saved : Saved crates before faults event (.ok sitemaps) after)
    (event : KnownEvent crates world event) (agent : before.agentName = world.agent) :
    ∀ text ∈ sitemaps, KnownText crates world text := by
  cases saved with
  | domainSaved stored built =>
    intro text member
    obtain ⟨body, robot, has, rules, names⟩ := getSitemaps_addDomain built member
    exact event body robot has (agent ▸ rules) text names
  | _ => exact List.forall_mem_nil _

omit [DecidableEq Url] in
theorem Saved.agent_eq {before after : CrawlerStorage Url} {faults : DbFaults}
    {event : ParsedData} {result : Outcome (List String)}
    (saved : Saved crates before faults event result after) :
    after.agentName = before.agentName := by
  cases saved <;> rfl

theorem processStreamEntry_known {storage : CrawlerStorage Url} {faults : DbFaults}
    {entry : StreamEntry} (known : KnownEntry crates world entry)
    (agent : storage.agentName = world.agent) (fit : CacheIdentifies storage)
    (pages : ∀ row ∈ storage.db.pages.rows, row ∈ old ∨ KnownRow crates world storage.db row) :
    (processStreamEntry crates storage faults entry).2.agentName = world.agent ∧
      (∀ row ∈ (processStreamEntry crates storage faults entry).2.db.pages.rows, row ∈ old ∨
        KnownRow crates world (processStreamEntry crates storage faults entry).2.db row) ∧
      ∀ sitemaps, (processStreamEntry crates storage faults entry).1 = .ok sitemaps →
        ∀ text ∈ sitemaps, KnownText crates world text := by
  cases decoded : eventOf crates entry with
  | some event =>
    rw [processStreamEntry_of_eventOf decoded]
    have saved := saveParsedData_saved crates storage faults event
    have known : KnownEvent crates world event := known event decoded
    refine ⟨saved.agent_eq.trans agent, saved.knownRows known fit pages,
      fun sitemaps answered => ?_⟩
    rw [answered] at saved
    exact saved.knownSitemaps known agent
  | none =>
    rw [(processStreamEntry_of_eventOf_none decoded storage faults).1]
    refine ⟨agent, pages, fun sitemaps succeeded => ?_⟩
    cases entry with
    | none =>
      cases succeeded
      exact List.forall_mem_nil _
    | some payload =>
      have unread : crates.fromJson payload = none := decoded
      simp only [processStreamEntry, unread] at succeeded
      cases succeeded

theorem offer_known (moved : service.offer crates = some next)
    (known : service.Known crates world old) : next.Known crates world old := by
  obtain ⟨id, sitemap, sitemaps, batch, offering, outcome⟩ := offer_eq_some crates moved
  have listed : ∀ text ∈ sitemap :: sitemaps, KnownText crates world text := by
    have held := known.consumer
    rw [offering] at held
    exact held
  have rest : ∀ text ∈ sitemaps, KnownText crates world text :=
    (List.forall_mem_cons.mp listed).2
  have pending : ∀ (storage : CrawlerStorage Url) (consumer : Consumer), consumer.batch = batch →
      StorageService.pending { service with storage, consumer } ⊆ service.pending := by
    intro storage consumer same
    rw [StorageService.pending, StorageService.pending, offering, same]
    exact List.Subset.refl _
  rcases outcome with ⟨reason, _, rfl⟩ | ⟨url, parsed, rfl⟩
  · exact known.fewer rfl known.fit (List.Subset.refl _) rest (pending _ _ rfl) rfl
  · have looked : StorageService.Known crates world old { service with
        storage := service.storage.afterLookup crates (.insertUrl url) } := known.looked rfl
    refine looked.fewer rfl looked.fit (List.Subset.refl _) ?_ ?_ rfl
    · split
      · exact rest
      · exact List.forall_mem_cons.mpr
          ⟨KnownText.asStr (listed sitemap List.mem_cons_self url parsed), rest⟩
    · refine pending _ _ ?_
      split <;> rfl

/-- A consumer that goes on with less has nothing new. -/
theorem Consumer.Known.goesOn {consumer after : Consumer} (known : consumer.Known crates world)
    {id attempt : Nat} {sitemap : String} {sitemaps : List String}
    {batch : List (StreamEntry × Nat)}
    (pushing : consumer = .pushing id sitemap attempt sitemaps batch)
    (goesOn : after = .offering id sitemaps batch ∨
      after = .pushing id sitemap (attempt + 1) sitemaps batch) : after.Known crates world := by
  have listed : ∀ text ∈ sitemap :: sitemaps, KnownText crates world text := by
    rw [pushing] at known
    exact known
  rcases goesOn with rfl | rfl
  · exact (List.forall_mem_cons.mp listed).2
  · exact listed

theorem Consumer.known_of_acking {consumer : Consumer} (none : consumer.acking = none) :
    consumer.Known crates world := by
  cases consumer with
  | offering _ _ _ | pushing _ _ _ _ _ => cases none
  | _ => trivial

theorem serviceStep_known (moved : serviceStep crates action service = some next)
    (publishes : ∀ entry, action = .publish entry → KnownEntry crates world entry)
    (known : service.Known crates world old) : next.Known crates world old := by
  have head : ∀ {entry id batch}, service.consumer = .processing ((entry, id) :: batch) →
      KnownEntry crates world entry := by
    intro entry id batch processing
    refine known.pending entry ?_
    rw [StorageService.pending_of_processing processing]
    exact List.mem_cons_self
  have added := (serviceStep_moved crates moved).pending_subset
  have fit : CacheIdentifies next.storage :=
    (serviceStep_moved crates moved).cacheIdentifies crates known.fit
  cases serviceStep_moved crates moved with
  | published entry => exact known.append (publishes entry rfl)
  | processed processing succeeded =>
    obtain ⟨agent, pages, answered⟩ :=
      processStreamEntry_known (head processing) known.agent known.fit known.pages
    exact ⟨agent, fit, known.queue, answered _ succeeded, fun entry member =>
      known.pending entry (added (fun _ same => by cases same) member), pages⟩
  | dropped processing failed goesOn =>
    obtain ⟨agent, pages, _⟩ :=
      processStreamEntry_known (head processing) known.agent known.fit known.pages
    refine ⟨agent, fit, known.queue, ?_, fun entry member =>
      known.pending entry (added (fun _ same => by cases same) member), pages⟩
    rcases goesOn with rfl | rfl
    · trivial
    · exact Consumer.known_of_acking (Consumer.acking_next _)
  | offered => exact offer_known moved known
  | @pushed _ _ _ sitemap sitemaps _ _ pushing _ goesOn =>
    have listed : ∀ text ∈ sitemap :: sitemaps, KnownText crates world text := by
      have held := known.consumer
      rw [pushing] at held
      exact held
    refine ⟨known.agent, fit, fun text member => ?_, known.consumer.goesOn pushing goesOn,
      fun entry member => known.pending entry (added (fun _ same => by cases same) member),
      known.pages⟩
    rcases List.mem_append.mp member with before | new
    · exact known.queue text before
    · exact listed text (List.mem_singleton.mp new ▸ List.mem_cons_self)
  | pushFailed pushing goesOn =>
    exact known.fewer rfl fit (List.Subset.refl _) (known.consumer.goesOn pushing goesOn)
      (added fun _ same => by cases same) rfl
  | looked request => exact known.looked rfl
  | groupCreated _ _ idle =>
    exact known.fewer rfl fit (List.Subset.refl _)
      (Consumer.known_of_acking (Consumer.idle_of_inHand idle).2)
      (added fun _ same => by cases same) rfl
  | readAnswered | acked | ackFailed =>
    exact known.fewer rfl fit (List.Subset.refl _)
      (Consumer.known_of_acking (Consumer.acking_next _)) (added fun _ same => by cases same) rfl
  | readLost | readFailed =>
    exact known.fewer rfl fit (List.Subset.refl _) known.consumer
      (added fun _ same => by cases same) rfl
  | _ =>
    exact known.fewer rfl fit (List.Subset.refl _) trivial (added fun _ same => by cases same) rfl

end Service

/-! ### The launch -/

section Launching

variable [DecidableEq Url] {crates : Crates Url} {world : World Url} {old : List PageRow}
  {shared next : Shared Url} {launch after : Launch Url} {input : Input Url}

theorem parseStart_known {startUrl : String} (listed : startUrl ∈ world.seeds) :
    (parseStart crates startUrl).Known crates world := by
  unfold parseStart
  split
  · trivial
  · rename_i parsed
    exact .seed listed parsed

theorem afterIsEmpty_known {startUrl seed : Option String} (queue : TaskQueue)
    (held : (Launch.checking startUrl seed : Launch Url).Known crates world) :
    (afterIsEmpty crates startUrl seed queue).Known crates world := by
  obtain ⟨start, seeds⟩ := held
  unfold afterIsEmpty
  split
  · exact parseStart_known (start _ rfl)
  · exact start _ rfl
  · split
    · trivial
    · intro text member
      rw [List.append_nil] at member
      exact seeds _ rfl text member
  · trivial

theorem insert_known {text : String} {answer : Outcome Bool} {service : StorageService Url}
    (called : rpc shared.service input (serveInsert crates text) = some (answer, service))
    (known : shared.service.Known crates world old) : service.Known crates world old := by
  obtain ⟨faults, _, _, served, _⟩ := rpc_eq_some called
  exact (lookedUp_of_served served (serveInsert_lookedUp crates _ text faults)).known known

theorem cleanQueue_known (call : Call) (known : shared.service.Known crates world old) :
    (cleanQueue shared.service call).Known crates world old := by
  unfold cleanQueue
  split
  · exact known
  · exact known.fewer rfl known.fit (List.nil_subset _) known.consumer (List.Subset.refl _) rfl

/-- The launch pushes seeds, and downloads nothing. -/
theorem launchStep_known (moved : launchStep crates input shared launch = some (next, after))
    (held : launch.Known crates world) (known : shared.service.Known crates world old) :
    after.Known crates world ∧ next.service.Known crates world old ∧
      next.journal = shared.journal := by
  cases launch with
  | checking startUrl seed =>
    cases input <;> cases moved
    refine ⟨?_, known, rfl⟩
    split
    · exact afterIsEmpty_known _ held
    · trivial
  | cleaning startUrl =>
    cases input <;> cases moved
    refine ⟨?_, cleanQueue_known _ known, rfl⟩
    split
    · exact parseStart_known held
    · trivial
  | pushing url =>
    cases input <;> cases moved
    refine ⟨?_, known.pushTasks (List.forall_mem_singleton.mpr (KnownText.asStr held)) _, rfl⟩
    split
    · exact held
    · trivial
  | marking url =>
    obtain ⟨⟨answer, service⟩, called, made⟩ := Option.map_eq_some_iff.mp moved
    obtain ⟨rfl, rfl⟩ := Prod.mk.inj made
    exact ⟨by cases answer <;> trivial, insert_known called known, rfl⟩
  | seeding left filtered =>
    cases left with
    | nil =>
      have seeds : ∀ text ∈ filtered, KnownText crates world text :=
        fun text member _ parsed => .seed (held text member) parsed
      cases filtered <;> cases input <;> cases moved
      · exact ⟨trivial, known, rfl⟩
      · refine ⟨?_, known.pushTasks seeds _, rfl⟩
        split <;> trivial
    | cons text left =>
      obtain ⟨⟨answer, service⟩, called, made⟩ := Option.map_eq_some_iff.mp moved
      obtain ⟨rfl, rfl⟩ := Prod.mk.inj made
      refine ⟨fun other member => held other ?_, insert_known called known, rfl⟩
      rw [← List.append_assoc, List.mem_append, List.mem_singleton] at member
      rcases member with before | rfl
      · rw [List.cons_append]
        exact List.mem_cons_of_mem _ before
      · exact List.mem_cons_self
  | counting =>
    cases input <;> cases moved
    exact ⟨by split <;> trivial, known, rfl⟩
  | running => cases moved
  | ended => cases moved

end Launching

/-! ### The deployment -/

section Deployments

variable [DecidableEq Url] {crates : Crates Url} {world : World Url} {old : List PageRow} {n : Nat}
  {limit : Option (BitVec 64)} {deployment next : Deployment Url n}

/-- The network answers as the world does, a launch starts with its seeds, and another process
publishes what is known. -/
def World.permits (world : World Url) (crates : Crates Url) : DeploymentAction Url n → Prop
  | .crawl (.worker _ input) => world.answers input
  | .crawl (.service (.publish entry)) => KnownEntry crates world entry
  | .restart startUrl seed => (Launch.checking startUrl seed : Launch Url).Known crates world
  | _ => True

/-- Every step of a crawl in the world keeps everything known. -/
theorem crawlerStep_known {action : CrawlerAction Url n} {crawler after : Crawler Url n}
    (readBack : EventsReadBack crates)
    (permitted : world.permits crates (.crawl action : DeploymentAction Url n))
    (moved : crawlerStep crates limit action crawler = some after)
    (service : crawler.shared.service.Known crates world old)
    (workers : ∀ id, (crawler.workers id).Known crates world)
    (downloaded : ∀ url ∈ crawler.shared.journal.downloaded, Discovered crates world url) :
    after.shared.service.Known crates world old ∧
      (∀ id, (after.workers id).Known crates world) ∧
      ∀ url ∈ after.shared.journal.downloaded, Discovered crates world url := by
  cases action with
  | worker id input =>
    obtain ⟨⟨shared, worker⟩, stepped, rfl⟩ := Option.map_eq_some_iff.mp moved
    have around := (workerStep_moved stepped).knownAround readBack (workers id) service downloaded
    exact ⟨around.1, Transition.forall_update workers
      (workerStep_known stepped permitted service.queue (workers id)), around.2⟩
  | service action =>
    obtain ⟨_, stepped, rfl⟩ := Option.map_eq_some_iff.mp moved
    refine ⟨serviceStep_known stepped ?_ service, workers, downloaded⟩
    rintro entry rfl
    exact permitted
  | _ =>
    cases crawlerStep_moved crates moved
    exact ⟨service, workers, downloaded⟩

/-- Every step of the deployment in the world keeps everything known. -/
theorem deploymentStep_known {action : DeploymentAction Url n} (readBack : EventsReadBack crates)
    (permitted : world.permits crates action)
    (moved : deploymentStep crates limit action deployment = some next)
    (known : deployment.Known crates world old) : next.Known crates world old := by
  obtain ⟨service, workers, launch, downloaded⟩ := known
  cases action with
  | crawl action =>
    obtain ⟨_, launches, crawled⟩ := crawlerStep_of_moved moved
    obtain ⟨served, worked, journal⟩ :=
      crawlerStep_known readBack permitted crawled service workers downloaded
    exact ⟨served, worked, launches ▸ launch, journal⟩
  | launch input =>
    obtain ⟨⟨shared, starting⟩, stepped, rfl⟩ := Option.map_eq_some_iff.mp moved
    obtain ⟨starts, served, journal⟩ := launchStep_known stepped launch service
    refine ⟨served, workers, starts, ?_⟩
    show ∀ url ∈ shared.journal.downloaded, Discovered crates world url
    rw [journal]
    exact downloaded
  | restart startUrl seed =>
    cases moved
    exact ⟨service, fun _ => trivial, permitted, List.forall_mem_nil _⟩

/-! ### Runs -/

/-- Before the first start nothing but the launch and the rows that are there is to be known. -/
theorem begin_known {startUrl seed : Option String} {clock : Instant} {db : CrawlerDb}
    (seeds : (Launch.checking startUrl seed : Launch Url).Known crates world) :
    (Deployment.begin startUrl seed clock (StorageService.initial db world.agent) :
      Deployment Url n).Known crates world db.pages.rows where
  service := ⟨rfl, cacheFits_started _ db world.agent, List.forall_mem_nil _, trivial,
    List.forall_mem_nil _, fun _ => Or.inl⟩
  workers _ := trivial
  launch := seeds
  downloaded := List.forall_mem_nil _

theorem reached_known {startUrl seed : Option String} {clock : Instant} {db : CrawlerDb}
    (readBack : EventsReadBack crates)
    (seeds : (Launch.checking startUrl seed : Launch Url).Known crates world)
    (reached : Transition.ReachesWith (deploymentStep crates limit)
      (fun _ action => world.permits crates action)
      (Deployment.begin startUrl seed clock (StorageService.initial db world.agent)) deployment) :
    deployment.Known crates world db.pages.rows :=
  reached.invariant (begin_known seeds) fun _ _ _ known permitted moved =>
    deploymentStep_known readBack permitted moved known

/-- In every run a worker asks for discovered URLs only, and the queue holds no other. -/
theorem crawl_stays_discovered {startUrl seed : Option String} {clock : Instant} {db : CrawlerDb}
    (readBack : EventsReadBack crates)
    (seeds : (Launch.checking startUrl seed : Launch Url).Known crates world)
    (reached : Transition.ReachesWith (deploymentStep crates limit)
      (fun _ action => world.permits crates action)
      (Deployment.begin startUrl seed clock (StorageService.initial db world.agent)) deployment) :
    (∀ url, deployment.crawler.shared.service.queue.Queued crates url →
        Discovered crates world url) ∧
      (∀ id url, (deployment.crawler.workers id).held = some url → Discovered crates world url) ∧
      ∀ url ∈ deployment.crawler.shared.journal.downloaded, Discovered crates world url := by
  have known := reached_known readBack seeds reached
  refine ⟨?_, fun id url held => ?_, known.downloaded⟩
  · rintro url ⟨text, waiting, parsed⟩
    exact known.service.queue text waiting url parsed
  · have worker := known.workers id
    cases place : deployment.crawler.workers id with
    | working other ticket task =>
      rw [place] at held worker
      exact Option.some.inj held ▸ worker.1
    | arrived other | acquiring other _ _ | requeueing other =>
      rw [place] at held worker
      exact Option.some.inj held ▸ worker
    | _ =>
      rw [place] at held
      cases held

/-- In every run a row of the pages table that was not there before is that of a page that the
parser read off a document that was downloaded for a discovered URL and that the keywords let
through. -/
theorem stored_pages_read_off {startUrl seed : Option String} {clock : Instant} {db : CrawlerDb}
    (readBack : EventsReadBack crates)
    (seeds : (Launch.checking startUrl seed : Launch Url).Known crates world)
    (reached : Transition.ReachesWith (deploymentStep crates limit)
      (fun _ action => world.permits crates action)
      (Deployment.begin startUrl seed clock (StorageService.initial db world.agent)) deployment) :
    ∀ row ∈ deployment.crawler.shared.service.storage.db.pages.rows,
      row ∈ db.pages.rows ∨
        KnownRow crates world deployment.crawler.shared.service.storage.db row :=
  (reached_known readBack seeds reached).service.pages

end Deployments

/-! ### The sample web -/

/-- The home page of the first site has a title, a text and a link to the second site. -/
def sampleTextWeb : Web SampleUrl := fun attempt url =>
  match url with
  | .home => .answer ⟨200, some (some "text/html"), some sampleText⟩
  | _ => sampleWeb attempt url

/-- The pages with the word are kept, and a launch starts with the first site. -/
def sampleWorld : World SampleUrl where
  webs := {sampleTextWeb}
  keywordsFiles := {some "rust"}
  seeds := {"https://a.example/"}
  agent := defaultAgentName

/-- The worker publishes the home page and pushes its link, the consumer saves the page, and the
worker downloads the page behind the link. -/
def sampleFollowed : List (DeploymentAction SampleUrl 1) :=
  [.crawl (.service (.start DbFaults.none)), .crawl (.service (.createGroup .answered))] ++
    sampleLaunch 1 ++
    sampleWorks (sampleTake ++ [.rpc DbFaults.none .answered, .web sampleTextWeb (some "rust"),
      .redis .answered, .proceed, .rpc DbFaults.none .answered, .proceed, .redis .answered,
      .proceed, .proceed]) ++
    [.crawl (.service (.read .answered)), .crawl (.service (.process DbFaults.none))] ++
    sampleWorks (sampleTake ++ [.rpc DbFaults.none .answered, .web sampleTextWeb (some "rust")])

theorem sampleSeeds : (Launch.checking none (some "https://a.example/") :
    Launch SampleUrl).Known sampleStreamCrates sampleWorld := by
  refine ⟨(fun _ given => by cases given), ?_⟩
  rintro _ ⟨⟩ text member
  have texts : seedTexts sampleStreamCrates "https://a.example/" = ["https://a.example/"] := by
    decide +kernel
  rw [texts] at member
  exact List.mem_singleton.mp member

/-- Both home pages are downloaded, and the one with the word is stored. -/
theorem sampleFollowed_reached : ∃ deployment : Deployment SampleUrl 1,
    deployment.crawler.shared.journal.downloaded = [.other, .home] ∧
    deployment.crawler.shared.service.storage.db.pages.rows.map
        (fun row => (row.url, row.title, row.cleanText)) =
      [("https://a.example/", some "Home", some "Home about rust")] ∧
    Transition.ReachesWith (deploymentStep sampleStreamCrates none)
      (fun _ action => sampleWorld.permits sampleStreamCrates action)
      (sampleOutset CrawlerDb.sampleSites) deployment := by
  have state : (Transition.run (deploymentStep sampleStreamCrates none) sampleFollowed
      (sampleOutset CrawlerDb.sampleSites)).map
        (fun deployment => (deployment.crawler.shared.journal.downloaded,
          deployment.crawler.shared.service.storage.db.pages.rows.map
            fun row => (row.url, row.title, row.cleanText))) =
      some ([.other, .home], [("https://a.example/", some "Home", some "Home about rust")]) := by
    decide +kernel
  obtain ⟨deployment, ran, shown⟩ := Option.map_eq_some_iff.mp state
  obtain ⟨downloaded, stored⟩ := Prod.mk.inj shown
  refine ⟨deployment, downloaded, stored, Transition.reachesWith_of_run ran ?_⟩
  refine Transition.permits_of_forall fun action member _ => ?_
  revert action
  simp [sampleFollowed, sampleLaunch, sampleWorks, sampleTake, World.permits, World.answers,
    sampleWorld]

/-- The page behind the link is discovered, and so is the seed. -/
theorem crawl_stays_discovered_sample : ∃ deployment : Deployment SampleUrl 1,
    deployment.crawler.shared.journal.downloaded = [.other, .home] ∧
    ∀ url ∈ deployment.crawler.shared.journal.downloaded,
      Discovered sampleStreamCrates sampleWorld url := by
  obtain ⟨deployment, downloaded, _, reached⟩ := sampleFollowed_reached
  exact ⟨deployment, downloaded,
    (crawl_stays_discovered eventsReadBack_sample sampleSeeds reached).2.2⟩

/-- The page that was stored is read off. -/
theorem stored_pages_read_off_sample : ∃ deployment : Deployment SampleUrl 1,
    deployment.crawler.shared.service.storage.db.pages.rows.map
        (fun row => (row.url, row.title, row.cleanText)) =
      [("https://a.example/", some "Home", some "Home about rust")] ∧
    ∀ row ∈ deployment.crawler.shared.service.storage.db.pages.rows,
      row ∈ CrawlerDb.sampleSites.pages.rows ∨ KnownRow sampleStreamCrates sampleWorld
        deployment.crawler.shared.service.storage.db row := by
  obtain ⟨deployment, _, stored, reached⟩ := sampleFollowed_reached
  exact ⟨deployment, stored, stored_pages_read_off eventsReadBack_sample sampleSeeds reached⟩

end PoliteCrawler
