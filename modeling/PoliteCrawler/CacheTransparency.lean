/-
This file proves that the domain cache cannot be noticed when the operations on
domains run one after the other.

Beside the service stands one without a cache, which reads the table of domains
each time. Whatever entries are dropped between the operations, both give the
same answers: an entry that is present is what the row of its domain reads back
as, and every operation keeps that. A save of data that does not convert would
write the row and leave the old entry, so the data saved has to convert.
-/

import PoliteCrawler.StorageRuns

namespace PoliteCrawler

open CrawlerDb

/-! ### The operations on domains -/

inductive DomainOp (Url : Type)
  | save (data : DomainDataSaveData)
  | check (url : Url)
  | delay (domain : String)
  | domainId (domain : String)

/-- An operation, the entries that are dropped before it, and the database attempts that fail. -/
structure DomainCall (Url : Type) where
  evicted : String → Bool
  op : DomainOp Url
  faults : DbFaults

inductive DomainAnswer
  | sitemaps (answer : Outcome (List String))
  | access (answer : Outcome UrlAccess)
  | delay (answer : Outcome Duration)
  | domainId (answer : Outcome (Option Int))

section Servers

variable {Url : Type} (crates : Crates Url)

/-- The operation on the service. -/
def CrawlerStorage.serve (storage : CrawlerStorage Url) (faults : DbFaults) :
    DomainOp Url → DomainAnswer × CrawlerStorage Url
  | .save data =>
    let saved := storage.saveDomain crates faults data
    (.sitemaps saved.1, saved.2)
  | .check url =>
    let checked := storage.checkIfUrlAllowed crates faults url
    (.access checked.1, checked.2)
  | .delay domain =>
    let asked := storage.getDelay crates faults domain
    (.delay asked.1, asked.2)
  | .domainId domain =>
    let asked := storage.getDomainId crates faults domain
    (.domainId asked.1, asked.2)

def serveCached (call : DomainCall Url) (storage : CrawlerStorage Url) :
    DomainAnswer × CrawlerStorage Url :=
  { storage with domainCache := storage.domainCache.evict call.evicted }.serve crates call.faults
    call.op

/-- The sitemap list of a robots text, empty when there is none. -/
def sitemapsOf (agent : String) (robots : Option String) : List String :=
  ((robots.bind (crates.robotNew agent)).map Robot.sitemaps).getD []

/-- The access check on the table. -/
def checkStored (db : CrawlerDb) (agent : String) (faults : DbFaults) (url : Url) :
    Outcome UrlAccess :=
  match crates.url.domain url with
  | none => .ok .urlWithoutHost
  | some domain =>
    (db.getCacheInfoAboutDomain crates faults domain agent).map
      (CrawlerStorage.accessOf (crates.url.path url))

/-- The operation without a cache. -/
def CrawlerDb.serve (db : CrawlerDb) (agent : String) (faults : DbFaults) :
    DomainOp Url → DomainAnswer × CrawlerDb
  | .save data =>
    match db.saveDomain faults data with
    | .error abort => (.sitemaps (.error abort), db)
    | .ok (_, next) => (.sitemaps (.ok (sitemapsOf crates agent data.robots)), next)
  | .check url => (.access (checkStored crates db agent faults url), db)
  | .delay domain =>
    (.delay ((db.getCacheInfoAboutDomain crates faults domain agent).map fun data =>
      (data.map CachedData.delay).getD (10 ^ 9)), db)
  | .domainId domain =>
    (.domainId ((db.getCacheInfoAboutDomain crates faults domain agent).map
      (Option.map CachedData.id)), db)

def serveStored (agent : String) (call : DomainCall Url) (db : CrawlerDb) :
    DomainAnswer × CrawlerDb :=
  db.serve crates agent call.faults call.op

end Servers

/-! ### The cache agrees with the table -/

section Agreement

variable {Url : Type} {crates : Crates Url} {storage : CrawlerStorage Url}

/-- A lookup answers what the table reads back as. -/
theorem CacheAgrees.cachedOrStored (agrees : CacheAgrees crates storage) {faults : DbFaults}
    (reads : allFail faults.read = false) (domain : String) :
    (storage.cachedOrStored crates faults domain).1 =
      storage.db.getCacheInfoAboutDomain crates faults domain storage.agentName := by
  unfold CrawlerStorage.cachedOrStored
  cases cached : storage.domainCache.getCachedDomain domain with
  | some entry =>
    obtain ⟨row, found, built⟩ := agrees domain entry cached
    have read : queryWithRetry faults.read (.ok (storage.db.domains.find? domain)) =
        .ok (some row) := by
      rw [queryWithRetry_value, reads, found]
      rfl
    simp only [getCacheInfoAboutDomain, read, built]
    rfl
  | none =>
    cases read : storage.db.getCacheInfoAboutDomain crates faults domain storage.agentName with
    | error abort => rfl
    | ok data => cases data <;> rfl

/-- A lookup leaves the table alone and the cache in agreement with it. -/
theorem CacheAgrees.looked (agrees : CacheAgrees crates storage) (faults : DbFaults)
    (domain : String) :
    (storage.cachedOrStored crates faults domain).2.db = storage.db ∧
      (storage.cachedOrStored crates faults domain).2.agentName = storage.agentName ∧
      CacheAgrees crates (storage.cachedOrStored crates faults domain).2 := by
  obtain ⟨domainCache, filled, state⟩ := cachedOrStored_state crates storage faults domain
  rw [state]
  exact ⟨rfl, rfl, CacheFits.refreshed crates agrees (fun _ _ built => built) filled.refreshed⟩

/-- The sitemaps of an entry built from a robots text are those of the text. -/
theorem sitemaps_new {id : Int} {robots : Option String} {delay : F32} {agent : String}
    {entry : CachedData} (built : CachedData.new crates id robots delay agent = .ok entry) :
    (entry.robot.map Robot.sitemaps).getD [] = sitemapsOf crates agent robots := by
  unfold CachedData.new at built
  cases robots with
  | none =>
    simp only [parseRobot] at built
    split at built <;> cases built
    rfl
  | some body =>
    rw [sitemapsOf, Option.bind_some]
    cases parsed : crates.robotNew agent body with
    | none =>
      simp only [parseRobot, parsed] at built
      cases built
    | some robot =>
      simp only [parseRobot, parsed] at built
      split at built <;> cases built
      rfl

/-- A save leaves the cache in agreement with the table, when domain data that is saved converts. -/
theorem Saved.agrees {after : CrawlerStorage Url} {faults : DbFaults} {event : ParsedData}
    {result : Outcome (List String)} (saved : Saved crates storage faults event result after)
    (agrees : CacheAgrees crates storage)
    (converts : ∀ data, event = .parsedDomain data → Convertible crates storage.agentName data) :
    CacheAgrees crates after := by
  have fits := saved.cacheFits crates agrees (fun _ _ built => built) ?rewritten
  case rewritten =>
    intro data id abort same _ unbuilt
    obtain ⟨entry, built⟩ := (CachedData.new_ok_iff crates).mpr (converts data same)
    cases built.symm.trans unbuilt
  unfold CacheAgrees
  rw [saved.agentName]
  exact fits

/-- A save of data that converts writes the row and caches what it reads back as. -/
theorem CacheAgrees.saved (agrees : CacheAgrees crates storage) (faults : DbFaults)
    {data : DomainDataSaveData} (convertible : Convertible crates storage.agentName data) :
    CacheAgrees crates (storage.saveDomain crates faults data).2 := by
  have saved : Saved crates storage faults (.parsedDomain data)
      (storage.saveDomain crates faults data).1 (storage.saveDomain crates faults data).2 :=
    saveParsedData_saved crates storage faults (.parsedDomain data)
  refine saved.agrees agrees ?_
  rintro _ ⟨⟩
  exact convertible

/-- A save of data that converts answers with the sitemaps of its robots text, once the row is
written. -/
theorem saveDomain_stored {faults : DbFaults} {data : DomainDataSaveData} {id : Int}
    {db : CrawlerDb} (convertible : Convertible crates storage.agentName data)
    (stored : storage.db.saveDomain faults data = .ok (id, db)) :
    (storage.saveDomain crates faults data).1 =
        .ok (sitemapsOf crates storage.agentName data.robots) ∧
      (storage.saveDomain crates faults data).2.db = db ∧
      (storage.saveDomain crates faults data).2.agentName = storage.agentName := by
  obtain ⟨entry, built⟩ : ∃ entry, CachedData.new crates id data.robots data.delay
      storage.agentName = .ok entry := (CachedData.new_ok_iff crates).mpr convertible
  have cached : (storage.domainCache.addDomain data.domainString entry).getSitemaps
      data.domainString = sitemapsOf crates storage.agentName data.robots := by
    rw [DomainCache.getSitemaps, DomainCache.addDomain_self, Option.bind_some, sitemaps_new built]
  simp only [CrawlerStorage.saveDomain, stored, built, cached, and_self]

theorem saveDomain_refused {faults : DbFaults} {data : DomainDataSaveData} {abort : Abort}
    (failed : storage.db.saveDomain faults data = .error abort) :
    storage.saveDomain crates faults data = (.error abort, storage) := by
  simp only [CrawlerStorage.saveDomain, failed]

end Agreement

/-! ### The service answers like the table -/

section Transparency

variable {Url : Type} {crates : Crates Url}

/-- The service has the tables of the one without a cache, and its cache agrees with them. -/
structure Mirrors (crates : Crates Url) (agent : String) (storage : CrawlerStorage Url)
    (db : CrawlerDb) : Prop where
  db : storage.db = db
  agent : storage.agentName = agent
  agrees : CacheAgrees crates storage

/-- What the operation saves, if it is a save, converts. -/
def DomainOp.Converts (crates : Crates Url) (agent : String) (op : DomainOp Url) : Prop :=
  ∀ data, op = .save data → Convertible crates agent data

theorem Mirrors.serve {agent : String} {storage : CrawlerStorage Url} {db : CrawlerDb}
    {faults : DbFaults} {op : DomainOp Url} (mirrors : Mirrors crates agent storage db)
    (converts : op.Converts crates agent) (reads : allFail faults.read = false) :
    (storage.serve crates faults op).1 = (db.serve crates agent faults op).1 ∧
      Mirrors crates agent (storage.serve crates faults op).2 (db.serve crates agent faults op).2 := by
  obtain ⟨rfl, rfl, agrees⟩ := mirrors
  have looked := fun domain => agrees.looked faults domain
  have lookup := fun domain => agrees.cachedOrStored reads domain
  unfold CrawlerStorage.serve CrawlerDb.serve
  cases op with
  | save data =>
    have kept := agrees.saved faults (converts data rfl)
    cases stored : storage.db.saveDomain faults data with
    | error abort =>
      simp only [stored, saveDomain_refused stored]
      exact ⟨trivial, rfl, rfl, agrees⟩
    | ok written =>
      obtain ⟨id, next⟩ := written
      obtain ⟨answer, tables, agent⟩ := saveDomain_stored (converts data rfl) stored
      simp only [stored, answer]
      exact ⟨trivial, tables, agent, kept⟩
  | check url =>
    cases host : crates.url.domain url with
    | none =>
      simp only [CrawlerStorage.checkIfUrlAllowed, checkStored, host]
      exact ⟨trivial, rfl, rfl, agrees⟩
    | some domain =>
      simp only [CrawlerStorage.checkIfUrlAllowed, checkStored, host, lookup domain]
      exact ⟨trivial, (looked domain).1, (looked domain).2.1, (looked domain).2.2⟩
  | delay domain =>
    simp only [CrawlerStorage.getDelay, lookup domain]
    exact ⟨trivial, (looked domain).1, (looked domain).2.1, (looked domain).2.2⟩
  | domainId domain =>
    simp only [CrawlerStorage.getDomainId, lookup domain]
    exact ⟨trivial, (looked domain).1, (looked domain).2.1, (looked domain).2.2⟩

theorem Mirrors.serveCached {agent : String} {storage : CrawlerStorage Url} {db : CrawlerDb}
    {call : DomainCall Url} (mirrors : Mirrors crates agent storage db)
    (converts : call.op.Converts crates agent) (reads : allFail call.faults.read = false) :
    (serveCached crates call storage).1 = (serveStored crates agent call db).1 ∧
      Mirrors crates agent (serveCached crates call storage).2
        (serveStored crates agent call db).2 := by
  have evicted : Mirrors crates agent
      { storage with domainCache := storage.domainCache.evict call.evicted } db :=
    ⟨mirrors.db, mirrors.agent, CacheFits.evict mirrors.agrees call.evicted⟩
  exact evicted.serve converts reads

/-- Operations one after the other are answered as if there were no cache, as long as what is saved
converts and no read fails in all its attempts. -/
theorem cache_transparent {agent : String} {db : CrawlerDb} {calls : List (DomainCall Url)}
    (converts : ∀ call ∈ calls, call.op.Converts crates agent)
    (reads : ∀ call ∈ calls, allFail call.faults.read = false) :
    Transition.answers (serveCached crates) calls (CrawlerStorage.started db.simhashes db agent) =
      Transition.answers (serveStored crates agent) calls db := by
  have initial : Mirrors crates agent (CrawlerStorage.started db.simhashes db agent) db :=
    ⟨rfl, rfl, cacheFits_started _ db agent⟩
  refine Transition.answers_eq_of_simulation ?_ initial
  intro call member _ _ mirrors
  exact mirrors.serveCached (converts call member) (reads call member)

end Transparency

/-! ### The sample web -/

/-- The second site becomes known, is looked up, leaves the cache and is looked up again. -/
def sampleCalls : List (DomainCall SampleUrl) :=
  [⟨fun _ => false, .check .other, DbFaults.none⟩,
    ⟨fun _ => false, .save ⟨"b.example", none, 0x40000000#32⟩, DbFaults.none⟩,
    ⟨fun _ => false, .check .other, DbFaults.none⟩,
    ⟨fun _ => true, .delay "b.example", DbFaults.none⟩,
    ⟨fun _ => false, .domainId "b.example", DbFaults.none⟩]

theorem cache_transparent_sampleCalls :
    Transition.answers (serveCached sampleCrates) sampleCalls
        (CrawlerStorage.started [] CrawlerDb.empty "EDUCATIONAL_CRAWLER") =
      Transition.answers (serveStored sampleCrates "EDUCATIONAL_CRAWLER") sampleCalls
        CrawlerDb.empty := by
  refine cache_transparent (fun call member => ?_) (fun call member => ?_)
  · rintro data same
    have saved : data = ⟨"b.example", none, 0x40000000#32⟩ := by
      simp only [sampleCalls, List.mem_cons, List.not_mem_nil, or_false] at member
      rcases member with rfl | rfl | rfl | rfl | rfl <;> cases same
      rfl
    rw [saved]
    exact ⟨⟨none, rfl⟩, by decide⟩
  · simp only [sampleCalls, List.mem_cons, List.not_mem_nil, or_false] at member
    rcases member with rfl | rfl | rfl | rfl | rfl <;> rfl

end PoliteCrawler
