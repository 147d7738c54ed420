/-
This file proves that a crawl learns the domains it comes across.

The first worker that checks a URL of an unknown domain fetches its robots.txt and
publishes what it found. The URL is gone after that, and every further URL of the
domain goes the same way until the event has made its way through the stream. So
what matters is that this comes to an end: in a run that loses no message the
event is saved in the end, the row it leaves reads back, and what reads back does
so from then on. A check of a URL of the domain is decided from that time on.
-/

import PoliteCrawler.PublishedPages

namespace PoliteCrawler

open CrawlerDb

variable {Url : Type} {crates : Crates Url} {n : Nat} {limit : Option (BitVec 64)}

/-! ### A domain that is known -/

section Storage

variable {storage after : CrawlerStorage Url} {faults : DbFaults}

/-- The check of every URL of the domain is decided, unless no attempt to read the database
succeeds. -/
def CrawlerStorage.Decides (crates : Crates Url) (storage : CrawlerStorage Url)
    (domain : String) : Prop :=
  ∀ url faults, crates.url.domain url = some domain →
    (storage.checkIfUrlAllowed crates faults url).1 = .ok .allowed ∨
      (storage.checkIfUrlAllowed crates faults url).1 = .ok .disallowed ∨
        allFail faults.read = true

/-- A row that reads back decides. -/
theorem decides_of_readable {domain : String} (agent : storage.agentName = defaultAgentName)
    (agrees : CacheAgrees crates storage) (known : domain ∈ readable crates storage.db) :
    storage.Decides crates domain := by
  intro url faults host
  cases reads : allFail faults.read with
  | true => exact Or.inr (Or.inr rfl)
  | false =>
    obtain ⟨entry, read⟩ := cachedOrStored_of_readable agent agrees reads known
    have answered : (storage.checkIfUrlAllowed crates faults url).1 =
        .ok (CrawlerStorage.accessOf (crates.url.path url) (some entry)) := by
      simp only [CrawlerStorage.checkIfUrlAllowed, host, read]
      rfl
    rw [answered]
    unfold CrawlerStorage.accessOf
    dsimp only
    split
    · split
      · exact Or.inl rfl
      · exact Or.inr (Or.inl rfl)
    · exact Or.inl rfl

/-- A domain event that is saved leaves a row that reads back. -/
theorem Saved.learns {data : DomainDataSaveData} {answer : List String}
    (saved : Saved crates storage faults (.parsedDomain data) (.ok answer) after)
    (agent : storage.agentName = defaultAgentName) :
    data.domainString ∈ PoliteCrawler.readable crates after.db := by
  cases saved with
  | domainSaved stored built =>
    have convertible : Convertible crates defaultAgentName data :=
      (CachedData.new_ok_iff crates).mp ⟨_, agent ▸ built⟩
    exact readable_upsertDomain convertible (Set.mem_union_right _ rfl)

end Storage

/-! ### Domains stay known -/

section Steps

variable [DecidableEq Url] {deployment next : Deployment Url n} {action : DeploymentAction Url n}
  {position : Nat}

theorem crawlerStep_readable {crawler after : Crawler Url n} {action : CrawlerAction Url n}
    (readBack : EventsReadBack crates)
    (moved : crawlerStep crates limit action crawler = some after)
    (supplied : crawler.Supplied crates) (stores : crawler.storesAll crates action = true) :
    readable crates crawler.shared.service.storage.db ⊆
      readable crates after.shared.service.storage.db := by
  cases crawlerStep_moved crates moved with
  | @worker id _ _ _ worked =>
    exact (worked.accepting readBack supplied.accepting (supplied.grounded id) stores).2
  | service served => exact (served.accepting supplied.accepting stores).2
  | _ => exact fun _ known => known

/-- No step loses a domain that reads back. -/
theorem deploymentStep_readable (readBack : EventsReadBack crates)
    (moved : deploymentStep crates limit action deployment = some next)
    (supplied : deployment.crawler.Supplied crates)
    (stores : deployment.storesAll crates action = true) :
    readable crates deployment.service.storage.db ⊆ readable crates next.service.storage.db := by
  cases action with
  | crawl action =>
    obtain ⟨_, _, crawled⟩ := crawlerStep_of_moved moved
    exact crawlerStep_readable readBack crawled supplied stores
  | launch input =>
    obtain ⟨⟨shared, launch⟩, launched, rfl⟩ := Option.map_eq_some_iff.mp moved
    exact ((launchStep_aside launched).accepting supplied.accepting).2
  | restart startUrl seed =>
    cases moved
    exact fun _ known => known

/-- The event of a domain comes to the stream behind all entries. -/
theorem domain_streamed (readBack : EventsReadBack crates) {id : Fin n} {url : Url} {ticket : Nat}
    {data : DomainData} {call : Call}
    (saving : deployment.crawler.workers id = .working url ticket (.savingDomain data))
    (grounded : (deployment.crawler.workers id).Grounded crates deployment.service.storage.db)
    (performed : call ≠ .failed)
    (moved : deploymentStep crates limit (.crawl (.worker id (.redis call))) deployment =
      some next) :
    ∃ entry robots delay,
      next.service.log.entries[deployment.service.log.entries.length]? = some entry ∧
        eventOf crates entry = some (.parsedDomain ⟨data.domainString, robots, delay⟩) := by
  rw [saving] at grounded
  obtain ⟨⟨web, asked, got⟩, converts⟩ := grounded
  obtain ⟨delay, _, reads⟩ := readBack.domain web asked data got converts
  obtain ⟨_, _, crawled⟩ := crawlerStep_of_moved moved
  obtain ⟨⟨shared, worker⟩, stepped, left⟩ := Option.map_eq_some_iff.mp crawled
  rw [saving] at stepped
  obtain ⟨rfl, rfl⟩ := Prod.mk.inj (Option.some.inj stepped)
  refine ⟨some _, data.robots, delay, ?_, reads⟩
  show next.crawler.shared.service.log.entries[_]? = _
  rw [← left]
  exact getElem?_publishEvent deployment.crawler.shared.service _ performed

end Steps

/-! ### Every domain is learned -/

/-- In a run in which every page that is published finds its domain, and the consumer goes on
whenever it has something to do, a domain whose robots.txt is published is known from some time on:
every check of a URL of it is decided. -/
theorem domains_learned [DecidableEq Url]
    {path : Transition.PathWith (deploymentStep (n := n) crates limit)
      (fun deployment action => deployment.delivers crates action = true)}
    {startUrl seed : Option String} {clock : Instant} {service : StorageService Url}
    {position : Nat} (readBack : EventsReadBack crates)
    (begins : path.state 0 = Deployment.begin startUrl seed clock service)
    (reading : service.consumer = .reading) (grouped : service.log.readTo = some position)
    (accepting : service.Accepting crates)
    (fair : path.Recurs fun deployment action =>
      deployment.service.Idle ∨ deployment.worksAt action)
    {time : Nat} {id : Fin n} {url : Url} {ticket : Nat} {data : DomainData} {call : Call}
    (saving : (path.state time).crawler.workers id = .working url ticket (.savingDomain data))
    (publishes : path.action time = .crawl (.worker id (.redis call)))
    (performed : call ≠ .failed) :
    path.Settles fun deployment =>
      deployment.service.storage.Decides crates data.domainString := by
  have delivering : ∀ later, (path.state later).Delivering crates position :=
    delivering_along readBack begins reading grouped accepting
  have moved := path.moves time
  rw [publishes] at moved
  obtain ⟨entry, robots, delay, found, decoded⟩ := domain_streamed readBack saving
    ((delivering time).supplied.grounded id) performed moved
  obtain ⟨later, _, accepted⟩ := event_accepted readBack begins reading grouped accepting
    fair (delivering time).behind found decoded
  obtain ⟨faults, answer, saved⟩ := accepted.saved (path.moves later)
  let knows : Deployment Url n → Prop := fun deployment =>
    deployment.Delivering crates position ∧
      data.domainString ∈ readable crates deployment.service.storage.db
  have now : knows (path.state (later + 1)) :=
    ⟨delivering _, saved.learns (delivering later).supplied.accepting.agent⟩
  refine ⟨later + 1, fun last after => ?_⟩
  obtain ⟨still, known⟩ : knows (path.state last) := by
    refine Transition.PathWith.lasts now (fun before action next knew delivers moved => ?_) last
      after
    obtain ⟨stores, _⟩ := Bool.and_eq_true_iff.mp delivers
    exact ⟨deploymentStep_delivering readBack moved knew.1 stores,
      deploymentStep_readable readBack moved knew.1.supplied stores knew.2⟩
  exact decides_of_readable still.supplied.accepting.agent still.supplied.accepting.agrees known

/-! ### The sample deployment -/

/-- A deployment that knows no domain. -/
def sampleUnknown : Deployment SampleUrl 1 :=
  Deployment.begin none (some "https://a.example/") 0 {
    StorageService.initial CrawlerDb.empty defaultAgentName with
    log := GroupedLog.empty.createGroup
    consumer := .reading }

/-- The worker checks the home page and fetches the robots.txt of its site. -/
def sampleFetches : List (DeploymentAction SampleUrl 1) :=
  sampleLaunch 1 ++ sampleWorks (sampleTake ++ [.web sampleWeb none, .proceed])

/-- The worker publishes what it fetched, and the consumer reads, saves and acknowledges it. -/
def samplePublishes : List (DeploymentAction SampleUrl 1) :=
  [.crawl (.worker (Fin.last 0) (.redis .answered)), .crawl (.service (.read .answered)),
    .crawl (.service (.process DbFaults.none)), .crawl (.service (.ack .answered))]

/-- The domain of the home page is known from some time on. -/
theorem domains_learned_sample : ∃ path : Transition.PathWith
      (deploymentStep (n := 1) sampleStreamCrates none)
      (fun deployment action => deployment.delivers sampleStreamCrates action = true),
    path.state 0 = sampleUnknown ∧ path.Settles fun deployment =>
      deployment.service.storage.Decides sampleStreamCrates "a.example" := by
  obtain ⟨middle, final, fetched, saving, published, reading, drained⟩ :
      ∃ middle final : Deployment SampleUrl 1,
      Transition.runWith (deploymentStep sampleStreamCrates none)
        (fun deployment action => deployment.delivers sampleStreamCrates action = true)
        sampleFetches sampleUnknown = some middle ∧
      middle.crawler.workers (Fin.last 0) =
        .working .home 0 (.savingDomain ⟨"a.example", none, 0⟩) ∧
      Transition.runWith (deploymentStep sampleStreamCrates none)
        (fun deployment action => deployment.delivers sampleStreamCrates action = true)
        samplePublishes middle = some final ∧
      final.service.consumer = .reading ∧ final.service.log.undelivered = [] :=
    ⟨_, _, rfl, rfl, rfl, rfl, rfl⟩
  obtain ⟨path, begins, fair, time, now, publishes⟩ :=
    exists_delivering_path fetched published reading drained
  have accepting : sampleUnknown.service.Accepting sampleStreamCrates :=
    ⟨rfl, cacheFits_started _ _ _, List.forall_mem_nil _, trivial⟩
  exact ⟨path, begins, domains_learned eventsReadBack_sample begins rfl rfl accepting fair
    (now ▸ saving) publishes (fun same => by cases same)⟩

end PoliteCrawler
