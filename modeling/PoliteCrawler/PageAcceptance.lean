/-
This file says when every page event that a worker publishes can be saved.

A worker publishes a page only after a check that found the domain of the URL it
asked for, so that domain has a row by then. The event carries the URL the
response came from. In a run in which that URL has a known domain, or one that an
event further ahead in the stream declares, the consumer accepts every page event
it comes to. A redirect to a site nobody has asked for yet leads out of these
runs.
-/

import PoliteCrawler.PendingEvents

namespace PoliteCrawler

open CrawlerDb Supply

variable {Url : Type} (crates : Crates Url)

/-! ### Accepted pages -/

/-- The events of the published pages are in the stream. -/
def Shared.Streams (shared : Shared Url) : Prop :=
  ∀ published ∈ shared.journal.published, ∃ entry ∈ shared.service.log.entries,
    eventOf crates entry = some (.parsedPage published.page)

/-- Every published page event is in the stream, and the consumer accepts each page event it comes
to: it finds the domain, and the save returns. -/
structure Crawler.AcceptsPages {n : Nat} (crawler : Crawler Url n) : Prop where
  streamed : crawler.shared.Streams crates
  accepted : ∀ (entry : StreamEntry) (id : Nat) (batch : List (StreamEntry × Nat))
    (page : ParsedPageSaveData) (faults : DbFaults),
    crawler.shared.service.consumer = .processing ((entry, id) :: batch) →
    eventOf crates entry = some (.parsedPage page) →
    allFail faults.read = false → allFail faults.write = false →
      (∃ domId, Identified crates crawler.shared.service.storage faults page domId) ∧
        (processStreamEntry crates crawler.shared.service.storage faults entry).1 = .ok []

/-! ### The runs in which every page finds its domain -/

/-- The domain of the URL is known, or an event to come declares it. -/
def hostKnown (service : StorageService Url) (url : Url) : Bool :=
  (crates.url.domain url).any fun host =>
    (service.storage.db.domains.find? host).any
        (fun row => (cachedRow crates defaultAgentName row).isOk) ||
      service.pending.any fun entry =>
        (eventOf crates entry).any fun event =>
          match event with
          | .parsedDomain data => data.domainString = host
          | .parsedPage _ => false

theorem found_of_hostKnown {service : StorageService Url} {url : Url}
    (known : hostKnown crates service url = true) : ∃ host, crates.url.domain url = some host ∧
      host ∈ readable crates service.storage.db ∪ provided (provides crates) service.pending := by
  obtain ⟨host, hosted, either⟩ := (Option.any_eq_true _ _).mp known
  refine ⟨host, hosted, ?_⟩
  rcases Bool.or_eq_true_iff.mp either with stored | declared
  · obtain ⟨row, found, reads⟩ := (Option.any_eq_true _ _).mp stored
    cases built : cachedRow crates defaultAgentName row with
    | error abort =>
      rw [built] at reads
      cases reads
    | ok entry => exact Or.inl ⟨row, entry, found, built⟩
  · obtain ⟨entry, member, declares⟩ := List.any_eq_true.mp declared
    obtain ⟨event, decoded, same⟩ := (Option.any_eq_true _ _).mp declares
    refine Or.inr ⟨entry, member, event, decoded, ?_⟩
    cases event with
    | parsedDomain data => exact (of_decide_eq_true same).symm
    | parsedPage page => cases same

variable [DecidableEq Url]

/-- The page that is published comes from the URL that was asked for, or from one whose domain is
known. -/
def publishesKnown (service : StorageService Url) : Worker Url → Input Url → Bool
  | .working url _ (.savingPage page _), .redis call =>
    call = .failed || page.url = url || hostKnown crates service page.url
  | _, _ => true

/-- The step publishes no page whose domain is unknown, and passes no entry over. -/
def Crawler.storesAll {n : Nat} (crawler : Crawler Url n) : CrawlerAction Url n → Bool
  | .worker id input => publishesKnown crates crawler.shared.service (crawler.workers id) input
  | .service action => passesNone crawler.shared.service action
  | _ => true

def Deployment.storesAll {n : Nat} (deployment : Deployment Url n) : DeploymentAction Url n → Bool
  | .crawl action => deployment.crawler.storesAll crates action
  | _ => true

/-! ### The runs in which no call fails -/

def Input.succeeds : Input Url → Bool
  | .redis call => call = .answered
  | .rpc faults call => call = .answered && !allFail faults.read && !allFail faults.write
  | _ => true

def ServiceAction.succeeds : ServiceAction Url → Bool
  | .publish _ | .kill => false
  | .createGroup call | .read call | .pushSitemap call | .ack call => call = .answered
  | .start faults | .process faults => !allFail faults.read && !allFail faults.write
  | _ => true

/-- No call of the step fails, the storage service is not killed, and only workers publish. -/
def noneFails {n : Nat} : DeploymentAction Url n → Bool
  | .crawl (.worker _ input) | .launch input => input.succeeds
  | .crawl (.service action) => action.succeeds
  | _ => true

/-- Where no call fails, what the workers publish is all that matters. -/
theorem Deployment.storesAll_of_noneFails {n : Nat} {deployment : Deployment Url n}
    {action : DeploymentAction Url n} (succeeds : noneFails action = true)
    (publishes : ∀ id input, action = .crawl (.worker id input) →
      publishesKnown crates deployment.crawler.shared.service (deployment.crawler.workers id)
        input = true) : deployment.storesAll crates action = true := by
  cases action with
  | crawl action =>
    cases action with
    | worker id input => exact publishes id input rfl
    | service action =>
      cases action with
      | read call =>
        obtain rfl : call = .answered := of_decide_eq_true succeeds
        rfl
      | publish _ | kill => cases succeeds
      | process faults => exact succeeds
      | _ => rfl
    | _ => rfl
  | _ => rfl

/-! ### What the workers know -/

/-- What the workers publish reads back. The delay of a domain may come back as another one that
converts. -/
structure EventsReadBack : Prop where
  page : ∀ (keywordsFile : Option String) (data : NotParsedPageData Url),
    crates.fromJson (crates.toJson (.parsedPage
      (convertParsedPageToSaveData crates (ParsedPage.parse crates keywordsFile data).2))) =
      some (.parsedPage
        (convertParsedPageToSaveData crates (ParsedPage.parse crates keywordsFile data).2))
  domain : ∀ (web : Web Url) (url : Url) (data : DomainData),
    getDomainData crates web url defaultAgentName = .ok data → data.delay.toDuration ≠ none →
      ∃ delay : F32, delay.toDuration ≠ none ∧
        crates.fromJson (crates.toJson (.parsedDomain (DomainDataSaveData.fromDomainData data))) =
          some (.parsedDomain ⟨data.domainString, data.robots, delay⟩)

/-- The domain of the URL is known. -/
def Known (db : CrawlerDb) (url : Url) : Prop :=
  ∃ host, crates.url.domain url = some host ∧ host ∈ readable crates db

/-- What is known of the URL and of the data that a worker carries. -/
def Worker.Grounded (db : CrawlerDb) : Worker Url → Prop
  | .working _ _ (.updatingDelay data) =>
    ∃ web url, getDomainData crates web url defaultAgentName = .ok data
  | .working _ _ (.savingDomain data) =>
    (∃ web url, getDomainData crates web url defaultAgentName = .ok data) ∧
      data.delay.toDuration ≠ none
  | .working url _ (.askingDelay _ _) | .working url _ (.fetchingPage _) => Known crates db url
  | .working url _ (.savingPage page _) => Known crates db url ∧
      ∃ keywordsFile data, page = (ParsedPage.parse crates keywordsFile data).2
  | _ => True

/-! ### Steps of the workers and the launch -/

section Steps

variable {crates} {shared next : Shared Url}

omit [DecidableEq Url] in
theorem Aside.accepting (aside : Aside crates shared next)
    (accepting : shared.service.Accepting crates) :
    next.service.Accepting crates ∧
      readable crates shared.service.storage.db ⊆ readable crates next.service.storage.db := by
  have pending : next.service.pending = shared.service.pending := by
    refine StorageService.pending_congr ?_ ?_
    · rw [aside.consumer]
    · rw [aside.log]
  rcases aside.storage with same | ⟨request, looked⟩
  · exact accepting.sameStorage same pending
  · exact accepting.looked request looked pending

omit [DecidableEq Url] in
/-- The robots text that a worker has fetched parses. -/
theorem getDomainData_parses {web : Web Url} {url : Url} {agent : String} {data : DomainData}
    (got : getDomainData crates web url agent = .ok data) :
    ∃ robot, parseRobot crates data.robots agent = .ok robot := by
  rcases (getDomainData_ok crates got).2 with ⟨absent, _⟩ | ⟨robots, robot, present, parsed, _⟩
  · exact ⟨none, by rw [absent]; rfl⟩
  · exact ⟨some robot, by simp only [present, parseRobot, parsed]⟩

/-- The event of a domain whose data a worker has fetched is added. -/
theorem StorageService.Accepting.publishDomain {service : StorageService Url}
    (accepting : service.Accepting crates) (readBack : EventsReadBack crates) {data : DomainData}
    (fetched : ∃ web url, getDomainData crates web url defaultAgentName = .ok data)
    (converts : data.delay.toDuration ≠ none) (call : Call) :
    (publishEvent crates service (.parsedDomain (DomainDataSaveData.fromDomainData data))
      call).Accepting crates := by
  obtain ⟨web, url, got⟩ := fetched
  obtain ⟨delay, convertible, reads⟩ := readBack.domain web url data got converts
  unfold publishEvent
  split
  · exact accepting
  · refine accepting.append ⟨_, reads, getDomainData_parses got, convertible⟩ ?_
    rintro domain ⟨event, decoded, needed⟩
    obtain rfl := Option.some.inj (reads.symm.trans decoded)
    exact absurd needed (Set.notMem_empty domain)

/-- The event of a page that finds its domain is added. -/
theorem StorageService.Accepting.publishPage {service : StorageService Url}
    (accepting : service.Accepting crates) (readBack : EventsReadBack crates)
    {page : ParsedPage Url}
    (parsed : ∃ keywordsFile data, page = (ParsedPage.parse crates keywordsFile data).2)
    (found : ∃ host, crates.url.domain page.url = some host ∧
      host ∈ readable crates service.storage.db ∪ provided (provides crates) service.pending)
    (call : Call) :
    (publishEvent crates service (.parsedPage (convertParsedPageToSaveData crates page))
      call).Accepting crates := by
  obtain ⟨keywordsFile, data, rfl⟩ := parsed
  obtain ⟨host, hosted, either⟩ := found
  have reads := readBack.page keywordsFile data
  have asked : hostOfPage crates (convertParsedPageToSaveData crates
      (ParsedPage.parse crates keywordsFile data).2) = some host := by
    unfold hostOfPage convertParsedPageToSaveData
    rw [crates.url.parse_asStr]
    exact hosted
  unfold publishEvent
  split
  · exact accepting
  · refine accepting.append ⟨_, reads, host, asked⟩ ?_
    rintro domain ⟨event, decoded, needed⟩
    obtain rfl := Option.some.inj (reads.symm.trans decoded)
    obtain rfl := Option.some.inj (asked.symm.trans needed)
    exact either

omit [DecidableEq Url] in
/-- A check that allows a URL has found its domain. -/
theorem known_of_allowed {storage : CrawlerStorage Url} {faults : DbFaults} {url : Url}
    (agent : storage.agentName = defaultAgentName) (agrees : CacheAgrees crates storage)
    (allowed : (storage.checkIfUrlAllowed crates faults url).1 = .ok .allowed) :
    Known crates storage.db url := by
  rcases CrawlerStorage.checkIfUrlAllowed_ok crates allowed with
    ⟨_, other⟩ | ⟨host, data, hosted, looked, access⟩
  · cases other
  · cases data with
    | none => cases access
    | some entry =>
      refine ⟨host, hosted, ?_⟩
      rcases cachedOrStored_some crates looked with cached | ⟨row, found, built⟩
      · obtain ⟨row, found, built⟩ := agrees host entry cached
        exact ⟨row, entry, found, agent ▸ built⟩
      · exact ⟨row, entry, found, agent ▸ built⟩

/-- What a worker knows is known after a step that loses no domain. -/
theorem Worker.Grounded.mono {worker : Worker Url} {db after : CrawlerDb}
    (grounded : worker.Grounded crates db) (kept : readable crates db ⊆ readable crates after) :
    worker.Grounded crates after := by
  have known : ∀ url, Known crates db url → Known crates after url :=
    fun _ ⟨host, hosted, member⟩ => ⟨host, hosted, kept member⟩
  unfold Worker.Grounded at grounded ⊢
  split at grounded
  · exact grounded
  · exact grounded
  · exact known _ grounded
  · exact known _ grounded
  · exact ⟨known _ grounded.1, grounded.2⟩
  · trivial

theorem TaskMoved.grounded {url : Url} {ticket : Nat} {task : Task Url} {input : Input Url}
    {after : Worker Url} (moved : TaskMoved crates url ticket shared task input next after)
    (grounded : (Worker.working url ticket task).Grounded crates shared.service.storage.db)
    (accepting : shared.service.Accepting crates) :
    after.Grounded crates shared.service.storage.db := by
  cases moved with
  | checkedPage _ allowed => exact known_of_allowed accepting.agent accepting.agrees allowed
  | robotsFetched got => exact ⟨_, _, got⟩
  | delayUpdated converts => exact ⟨grounded, fun none => by cases none.symm.trans converts⟩
  | domainSaved goesOn => rcases goesOn with rfl | ⟨_, rfl⟩ <;> trivial
  | sitemapDelayAsked _ goesOn => rcases goesOn with rfl | ⟨_, rfl⟩ <;> trivial
  | delayAsked _ goesOn =>
    rcases goesOn with rfl | ⟨_, rfl⟩
    · exact grounded
    · trivial
  | pageFetched _ goesOn =>
    rcases goesOn with rfl | rfl
    · exact ⟨grounded, _, _, rfl⟩
    · trivial
  | pageSaved _ goesOn => rcases goesOn with rfl | ⟨_, rfl⟩ <;> trivial
  | pushFailed _ goesOn => rcases goesOn with ⟨_, rfl⟩ | rfl <;> trivial
  | _ => trivial

theorem WorkerMoved.grounded {worker after : Worker Url} {input : Input Url}
    (moved : WorkerMoved crates shared worker input next after)
    (grounded : worker.Grounded crates shared.service.storage.db)
    (accepting : shared.service.Accepting crates) :
    after.Grounded crates shared.service.storage.db := by
  cases moved with
  | task moved => exact moved.grounded grounded accepting
  | looped goesOn => rcases goesOn with rfl | rfl <;> trivial
  | released owed => rcases owed with ⟨_, rfl⟩ | ⟨_, rfl⟩ | ⟨_, _, rfl | rfl⟩ <;> trivial
  | _ => trivial

/-- A step of a worker keeps the entries to come supplied, and keeps the domains. -/
theorem WorkerMoved.accepting {worker after : Worker Url} {input : Input Url}
    (moved : WorkerMoved crates shared worker input next after) (readBack : EventsReadBack crates)
    (accepting : shared.service.Accepting crates)
    (grounded : worker.Grounded crates shared.service.storage.db)
    (publishes : publishesKnown crates shared.service worker input = true) :
    next.service.Accepting crates ∧
      readable crates shared.service.storage.db ⊆ readable crates next.service.storage.db := by
  rcases moved.stream_cases with aside | ⟨url, ticket, data, call, rfl, rfl⟩ |
    ⟨url, ticket, page, decided, call, rfl, rfl, performed, rfl⟩
  · exact aside.accepting accepting
  · refine ⟨accepting.publishDomain readBack grounded.1 grounded.2 call, ?_⟩
    rw [publishEvent_storage]
  · obtain ⟨⟨host, hosted, known⟩, parsed⟩ := grounded
    have found : ∃ host, crates.url.domain page.url = some host ∧
        host ∈ readable crates shared.service.storage.db ∪
          provided (provides crates) shared.service.pending := by
      simp only [publishesKnown, performed, decide_false, Bool.false_or, Bool.or_eq_true,
        decide_eq_true_eq] at publishes
      rcases publishes with same | elsewhere
      · exact ⟨host, same ▸ hosted, Or.inl known⟩
      · exact found_of_hostKnown crates elsewhere
    refine ⟨accepting.publishPage readBack parsed found call, ?_⟩
    show _ ⊆ readable crates (publishEvent crates shared.service _ call).storage.db
    rw [publishEvent_storage]

omit [DecidableEq Url] in
/-- A stream that only grows keeps the events of the pages published before. -/
theorem Shared.Streams.grow (streams : shared.Streams crates)
    (published : next.journal.published = shared.journal.published)
    (entries : shared.service.log.entries ⊆ next.service.log.entries) : next.Streams crates := by
  intro page member
  obtain ⟨entry, present, decoded⟩ := streams page (published ▸ member)
  exact ⟨entry, entries present, decoded⟩

omit [DecidableEq Url] in
theorem publishEvent_entries (service : StorageService Url) (event : ParsedData) (call : Call) :
    service.log.entries ⊆ (publishEvent crates service event call).log.entries := by
  unfold publishEvent
  split
  · exact List.Subset.refl _
  · exact List.subset_append_left _ _

theorem WorkerMoved.streams {worker after : Worker Url} {input : Input Url}
    (moved : WorkerMoved crates shared worker input next after) (readBack : EventsReadBack crates)
    (grounded : worker.Grounded crates shared.service.storage.db)
    (streams : shared.Streams crates) : next.Streams crates := by
  rcases moved.stream_cases with aside | ⟨url, ticket, data, call, rfl, rfl⟩ |
    ⟨url, ticket, page, decided, call, rfl, rfl, performed, rfl⟩
  · exact streams.grow aside.published (by rw [aside.log]; exact List.Subset.refl _)
  · exact streams.grow rfl (publishEvent_entries _ _ _)
  · obtain ⟨_, keywordsFile, data, rfl⟩ := grounded
    intro published member
    rcases List.mem_cons.mp member with rfl | old
    · refine ⟨some _, ?_, readBack.page keywordsFile data⟩
      show _ ∈ (publishEvent crates shared.service _ call).log.entries
      rw [publishEvent, if_neg performed]
      exact List.mem_append_right _ (List.mem_singleton_self _)
    · obtain ⟨entry, present, decoded⟩ := streams published old
      exact ⟨entry, publishEvent_entries _ _ _ present, decoded⟩

omit [DecidableEq Url] in
theorem ServiceMoved.entries {service after : StorageService Url} {action : ServiceAction Url}
    (moved : ServiceMoved crates service action after) :
    service.log.entries ⊆ after.log.entries := by
  cases moved with
  | published entry => exact List.subset_append_left _ _
  | _ => exact List.Subset.refl _

end Steps

/-! ### Runs -/

section Runs

variable {crates} {n : Nat}

/-- The entries to come are supplied, and the workers know what they are about to publish. -/
structure Crawler.Supplied (crates : Crates Url) (crawler : Crawler Url n) : Prop where
  accepting : crawler.shared.service.Accepting crates
  grounded : ∀ id, (crawler.workers id).Grounded crates crawler.shared.service.storage.db
  streams : crawler.shared.Streams crates

theorem CrawlerMoved.supplied {crawler next : Crawler Url n} {action : CrawlerAction Url n}
    (moved : CrawlerMoved crates crawler action next) (readBack : EventsReadBack crates)
    (supplied : crawler.Supplied crates) (stores : crawler.storesAll crates action = true) :
    next.Supplied crates := by
  obtain ⟨accepting, grounded, streams⟩ := supplied
  cases moved with
  | @worker id input shared worker moved =>
    obtain ⟨accepting', kept⟩ := moved.accepting readBack accepting (grounded id) stores
    have others := fun other => (grounded other).mono kept
    have mover := (moved.grounded (grounded id) accepting).mono kept
    exact ⟨accepting', Transition.forall_update others mover,
      moved.streams readBack (grounded id) streams⟩
  | service moved =>
    obtain ⟨accepting', kept⟩ := moved.accepting accepting stores
    exact ⟨accepting', fun id => (grounded id).mono kept, streams.grow rfl moved.entries⟩
  | _ => exact ⟨accepting, grounded, streams⟩

/-- The launch leaves what is supplied, and a new process has nothing to publish. -/
theorem deploymentStep_supplied {deployment next : Deployment Url n} {limit : Option (BitVec 64)}
    {action : DeploymentAction Url n}
    (moved : deploymentStep crates limit action deployment = some next)
    (readBack : EventsReadBack crates) (supplied : deployment.crawler.Supplied crates)
    (stores : deployment.storesAll crates action = true) : next.crawler.Supplied crates := by
  cases action with
  | crawl action =>
    obtain ⟨_, _, stepped⟩ := crawlerStep_of_moved moved
    exact (crawlerStep_moved crates stepped).supplied readBack supplied stores
  | launch input =>
    obtain ⟨⟨shared, launch⟩, stepped, rfl⟩ := Option.map_eq_some_iff.mp moved
    have aside : Aside crates deployment.crawler.shared shared := launchStep_aside stepped
    obtain ⟨accepting, kept⟩ := aside.accepting supplied.accepting
    refine ⟨accepting, fun id => (supplied.grounded id).mono kept, ?_⟩
    exact supplied.streams.grow aside.published (by rw [aside.log]; exact List.Subset.refl _)
  | restart startUrl seed =>
    cases moved
    exact ⟨supplied.accepting, fun _ => trivial, nofun⟩

omit [DecidableEq Url] in
/-- A page that is saved has no sitemaps. -/
theorem Saved.answer_of_page {before after : CrawlerStorage Url} {faults : DbFaults}
    {page : ParsedPageSaveData} {answer : List String}
    (saved : Saved crates before faults (.parsedPage page) (.ok answer) after) : answer = [] := by
  cases saved <;> rfl

/-- What is supplied is accepted. -/
theorem Crawler.Supplied.acceptsPages {crawler : Crawler Url n}
    (supplied : crawler.Supplied crates) : crawler.AcceptsPages crates where
  streamed := supplied.streams
  accepted entry id batch page faults processing decoded reads writes := by
    obtain ⟨event, answer, decodes, sound, known, succeeded⟩ :=
      supplied.accepting.accepts processing reads writes
    obtain rfl := Option.some.inj (decoded.symm.trans decodes)
    obtain ⟨host, hosted⟩ := sound
    refine ⟨identified_of_readable supplied.accepting.agent supplied.accepting.agrees reads hosted
      (known hosted), ?_⟩
    have saved := saveParsedData_saved crates crawler.shared.service.storage faults
      (.parsedPage page)
    rw [← processStreamEntry_of_eventOf decoded, succeeded] at saved
    rw [succeeded, saved.answer_of_page]

/-- The crawl of the deployment is supplied. -/
def Deployment.Supplied (crates : Crates Url) (deployment : Deployment Url n) : Prop :=
  deployment.crawler.Supplied crates

/-- In a run in which every page that is published finds its domain, and no entry of the stream is
passed over, the consumer accepts every page. -/
theorem published_accepted {startUrl seed : Option String} {clock : Instant} {db : CrawlerDb}
    {limit : Option (BitVec 64)} {deployment : Deployment Url n}
    (readBack : EventsReadBack crates)
    (reached : Transition.ReachesWith (deploymentStep crates limit)
      (fun deployment action => deployment.storesAll crates action = true)
      (Deployment.begin startUrl seed clock (StorageService.initial db defaultAgentName))
      deployment) : deployment.crawler.AcceptsPages crates := by
  have accepting : (StorageService.initial db defaultAgentName : StorageService Url).Accepting
      crates := ⟨rfl, cacheFits_started _ db defaultAgentName, nofun, trivial⟩
  have start : (Deployment.begin startUrl seed clock
      (StorageService.initial db defaultAgentName) : Deployment Url n).Supplied crates :=
    ⟨accepting, fun _ => trivial, nofun⟩
  have supplied := reached.invariant start fun before action after supplied stores moved =>
    deploymentStep_supplied moved readBack supplied stores
  exact supplied.acceptsPages

end Runs

/-! ### The sample web -/

/-- The JSON of a page event of the sample web, whose pages have no description. -/
def samplePageJson (title cleanText : Option String) (url : SampleUrl) : ParsedData × String :=
  let json (column : Option String) : String :=
    (column.map fun text => "\"" ++ text ++ "\"").getD "null"
  (.parsedPage { title, description := none, cleanText, url := url.asStr },
    "\x7b\"event_type\":\"ParsedPage\",\"title\":" ++ json title ++
      ",\"description\":null,\"clean_text\":" ++ json cleanText ++ ",\"url\":\"" ++ url.asStr ++
      "\"\x7d")

/-- The JSON of the domain events of a site: without a robots.txt, and with either text that
parses. -/
def sampleDomainJson (domainString : String) : List (ParsedData × String) :=
  let json (robots delay : String) : String :=
    "\x7b\"event_type\":\"ParsedDomain\",\"domain_string\":\"" ++ domainString ++
      "\",\"robots\":" ++ robots ++ ",\"delay\":" ++ delay ++ "\x7d"
  [(.parsedDomain ⟨domainString, none, 0⟩, json "null" "0.0"),
    (.parsedDomain ⟨domainString, some "User-agent: *\nDisallow: /secret", 0⟩,
      json "\"User-agent: *\\nDisallow: /secret\"" "0.0"),
    (.parsedDomain ⟨domainString, some "User-agent: *\nCrawl-delay: 5", 0x40a00000#32⟩,
      json "\"User-agent: *\\nCrawl-delay: 5\"" "5.0")]

/-- Everything a worker can publish on the sample web. -/
def sampleEvents : List (ParsedData × String) :=
  [SampleUrl.home, .about, .secret, .robots, .other, .otherRobots].flatMap (fun url =>
    [samplePageJson none none url, samplePageJson none (some "") url,
      samplePageJson (some "Home") (some "Home about rust") url]) ++
  ["a.example", "b.example"].flatMap sampleDomainJson

/-- The sample web with the JSON of all its events. -/
def sampleStreamCrates : Crates SampleUrl :=
  { sampleCrates with
    fromJson := fun payload => (sampleEvents.find? fun entry => entry.2 = payload).map Prod.fst
    toJson := fun event =>
      ((sampleEvents.find? fun entry => entry.1 = event).map Prod.snd).getD "null" }

/-- A page of the sample web is empty, or has the title and the text of the page that has them. -/
theorem parse_sample (keywordsFile : Option String) (data : NotParsedPageData SampleUrl) :
    ∃ columns ∈ [(none, none), (none, some ""), (some "Home", some "Home about rust")],
      convertParsedPageToSaveData sampleStreamCrates
        (ParsedPage.parse sampleStreamCrates keywordsFile data).2 =
        { title := columns.1, description := none, cleanText := columns.2,
          url := data.url.asStr } := by
  have document : descriptionOf (sampleDocument data.content) = none ∧
      (titleOf sampleStreamCrates (sampleDocument data.content),
        some (cleanTextOf sampleStreamCrates (sampleDocument data.content))) ∈
          [(none, none), (none, some ""), (some "Home", some "Home about rust")] := by
    unfold sampleDocument
    dsimp only
    split
    · decide +kernel
    · split <;> decide +kernel
  obtain ⟨description, columns⟩ := document
  simp only [ParsedPage.parse]
  split
  · exact ⟨(none, none), List.mem_cons_self, rfl⟩
  · refine ⟨_, columns, ?_⟩
    show ({ title := titleOf sampleStreamCrates (sampleDocument data.content)
            description := descriptionOf (sampleDocument data.content)
            cleanText := some (cleanTextOf sampleStreamCrates (sampleDocument data.content))
            url := data.url.asStr } : ParsedPageSaveData) = _
    rw [description]

/-- A domain of the sample web has no robots.txt, or one of the two that parse. -/
theorem getDomainData_sample {web : Web SampleUrl} {url : SampleUrl} {data : DomainData}
    (got : getDomainData sampleStreamCrates web url defaultAgentName = .ok data) :
    ParsedData.parsedDomain (DomainDataSaveData.fromDomainData data) ∈
      (sampleDomainJson url.domain).map Prod.fst := by
  obtain ⟨hosted, rules⟩ := getDomainData_ok sampleStreamCrates got
  obtain ⟨domainString, robots, delay⟩ := data
  obtain rfl : url.domain = domainString := Option.some.inj hosted
  rcases rules with ⟨rfl, rfl⟩ | ⟨body, robot, rfl, parsed, rfl⟩
  · exact List.mem_cons_self
  · have known : sampleRobot defaultAgentName body = some robot := parsed
    unfold sampleRobot at known
    split at known
    · cases known
    · split at known
      · rename_i disallows
        cases known
        subst disallows
        exact List.mem_cons_of_mem _ List.mem_cons_self
      · split at known
        · rename_i delays
          cases known
          subst delays
          exact List.mem_cons_of_mem _ (List.mem_cons_of_mem _ List.mem_cons_self)
        · cases known

theorem sampleEvents_readBack : ∀ event ∈ sampleEvents.map Prod.fst,
    sampleStreamCrates.fromJson (sampleStreamCrates.toJson event) = some event := by
  decide +kernel

theorem eventsReadBack_sample : EventsReadBack sampleStreamCrates where
  page keywordsFile data := by
    refine sampleEvents_readBack _ ?_
    obtain ⟨columns, listed, page⟩ := parse_sample keywordsFile data
    have events : ∀ url : SampleUrl,
        ∀ columns ∈ [(none, none), (none, some ""), (some "Home", some "Home about rust")],
          ParsedData.parsedPage ⟨columns.1, none, columns.2, url.asStr⟩ ∈
            sampleEvents.map Prod.fst := by
      intro url
      cases url <;> decide +kernel
    rw [page]
    exact events data.url columns listed
  domain web url data got converts := by
    refine ⟨data.delay, converts, sampleEvents_readBack _ ?_⟩
    obtain ⟨entry, member, same⟩ := List.mem_map.mp (getDomainData_sample got)
    refine List.mem_map.mpr ⟨entry, List.mem_append_right _ ?_, same⟩
    exact List.mem_flatMap.mpr ⟨url.domain, by cases url <;> decide, member⟩

/-- The home page of the first site is a redirect to that of the second. -/
def sampleMovedWeb : Web SampleUrl := fun attempt url =>
  match url with
  | .home => .redirect .other
  | _ => sampleWeb attempt url

/-- A deployment before the first start, with a database and the home page of the first site as its
seed. -/
def sampleOutset (db : CrawlerDb) : Deployment SampleUrl 1 :=
  Deployment.begin none (some "https://a.example/") 0 (StorageService.initial db defaultAgentName)

/-- The services come up, a worker takes the home page and publishes what it downloads, and the
consumer reads the event. -/
def sampleMoved : List (DeploymentAction SampleUrl 1) :=
  [.crawl (.service (.start DbFaults.none)), .crawl (.service (.createGroup .answered))] ++
    sampleLaunch 1 ++
    sampleWorks (sampleTake ++ [.rpc DbFaults.none .answered, .web sampleMovedWeb none,
      .redis .answered]) ++
    [.crawl (.service (.read .answered))]

/-- The consumer saves the page that was read. -/
def sampleStored : List (DeploymentAction SampleUrl 1) :=
  sampleMoved ++ [.crawl (.service (.process DbFaults.none))]

/-- With both sites in the table the page of the second is accepted. -/
theorem published_accepted_sample : ∃ deployment : Deployment SampleUrl 1,
    Transition.run (deploymentStep sampleStreamCrates none) sampleMoved
      (sampleOutset (CrawlerDb.sample.upsertDomain ⟨"b.example", none, 0⟩)) = some deployment ∧
    deployment.crawler.AcceptsPages sampleStreamCrates := by
  obtain ⟨deployment, ran⟩ : ∃ deployment : Deployment SampleUrl 1,
      Transition.runWith (deploymentStep sampleStreamCrates none)
        (fun deployment action => deployment.storesAll sampleStreamCrates action = true) sampleMoved
        (sampleOutset (CrawlerDb.sample.upsertDomain ⟨"b.example", none, 0⟩)) =
          some deployment := ⟨_, rfl⟩
  exact ⟨deployment, Transition.run_of_runWith ran,
    published_accepted eventsReadBack_sample (Transition.reachesWith_of_runWith ran)⟩

/-- The table knows the first site only. No call fails, and the consumer refuses the page of the
second. -/
theorem moved_page_refused : ∃ deployment : Deployment SampleUrl 1,
    Transition.ReachesWith (deploymentStep sampleStreamCrates none)
      (fun _ action => noneFails action = true) (sampleOutset CrawlerDb.sample) deployment ∧
    ¬ deployment.crawler.AcceptsPages sampleStreamCrates := by
  obtain ⟨deployment, ran⟩ : ∃ deployment : Deployment SampleUrl 1,
      Transition.runWith (deploymentStep sampleStreamCrates none)
        (fun _ action => noneFails action = true) sampleMoved (sampleOutset CrawlerDb.sample) =
          some deployment := ⟨_, rfl⟩
  have state : (Transition.runWith (deploymentStep sampleStreamCrates none)
      (fun _ action => noneFails action = true) sampleMoved (sampleOutset CrawlerDb.sample)).map
        (fun deployment =>
          let service := deployment.crawler.shared.service
          (service.consumer.acking, service.consumer.batch.map fun left =>
            (eventOf sampleStreamCrates left.1,
              (processStreamEntry sampleStreamCrates service.storage DbFaults.none left.1).1.isOk))) =
      some (none, [(some (.parsedPage (samplePage .other "")), false)]) := by decide +kernel
  rw [ran, Option.map_some, Option.some.injEq, Prod.mk.injEq] at state
  obtain ⟨acking, ⟨entry, id⟩, batch, found⟩ := state.imp_right List.map_eq_singleton_iff.mp
  obtain ⟨event, refused⟩ := Prod.mk.inj found
  refine ⟨deployment, Transition.reachesWith_of_runWith ran, fun accepts => ?_⟩
  obtain ⟨_, accepted⟩ := accepts.accepted entry id [] _ DbFaults.none
    (Consumer.eq_processing batch acking) event rfl rfl
  rw [accepted] at refused
  cases refused

end PoliteCrawler
