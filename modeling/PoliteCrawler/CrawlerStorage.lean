/-
This file models the state of the storage service and the operations on it: the
access check, the delay lookup, and the saving of the events of the stream.

The database is the only part that survives a restart; the domain cache, the
near-duplicate index, the seen URLs and the counter live in memory. An operation
returns its outcome together with the state it leaves, so that a call that fails
half-way keeps what it already wrote.
-/

import PoliteCrawler.ContentDeduplicator
import PoliteCrawler.CrawlerDb

namespace PoliteCrawler

/-! ### The parts in memory -/

/-- The cached domains. -/
structure DomainCache where
  cache : String → Option CachedData

namespace DomainCache

def new : DomainCache := ⟨fun _ => none⟩

def addDomain (cache : DomainCache) (domain : String) (data : CachedData) : DomainCache :=
  ⟨Function.update cache.cache domain (some data)⟩

def getCachedDomain (cache : DomainCache) (domain : String) : Option CachedData :=
  cache.cache domain

def getSitemaps (cache : DomainCache) (domain : String) : List String :=
  (((cache.cache domain).bind CachedData.robot).map Robot.sitemaps).getD []

/-- Drops the entries that have been idle too long. -/
def evict (cache : DomainCache) (idle : String → Bool) : DomainCache :=
  ⟨fun domain => if idle domain then none else cache.cache domain⟩

theorem addDomain_self (cache : DomainCache) (domain : String) (data : CachedData) :
    (cache.addDomain domain data).cache domain = some data := by
  simp only [addDomain, Function.update_self]

theorem addDomain_of_ne (cache : DomainCache) (data : CachedData) {domain other : String}
    (different : other ≠ domain) :
    (cache.addDomain domain data).cache other = cache.cache other := by
  simp only [addDomain, Function.update_of_ne different]

/-- An entry that is cached after another was added is the new one, or was cached before. -/
theorem cache_of_addDomain {cache : DomainCache} {domain other : String} {data found : CachedData}
    (cached : (cache.addDomain domain data).cache other = some found) :
    other = domain ∧ found = data ∨ other ≠ domain ∧ cache.cache other = some found := by
  by_cases same : other = domain
  · subst same
    rw [addDomain_self] at cached
    exact Or.inl ⟨rfl, (Option.some.inj cached).symm⟩
  · rw [addDomain_of_ne _ _ same] at cached
    exact Or.inr ⟨same, cached⟩

/-- Caching what is cached changes nothing. -/
theorem addDomain_eq_self {cache : DomainCache} {domain : String} {data : CachedData}
    (cached : cache.cache domain = some data) : cache.addDomain domain data = cache := by
  rw [addDomain, ← cached, Function.update_eq_self]

theorem cache_of_evict {cache : DomainCache} {idle : String → Bool} {domain : String}
    {data : CachedData} (cached : (cache.evict idle).cache domain = some data) :
    cache.cache domain = some data := by
  simp only [evict] at cached
  split at cached
  · cases cached
  · exact cached

end DomainCache

/-- The URLs already handed out, as a Bloom filter: those that set a bit of it. -/
structure SeenUrls (Url : Type) where
  seenUrls : List Url

/-- Returns whether the filter contains the URL already; if it does, it stays as it is. -/
def SeenUrls.insertUrl {Url : Type} (crates : Crates Url) (seen : SeenUrls Url) (url : Url) :
    Bool × SeenUrls Url :=
  if crates.bloomContains seen.seenUrls url then (true, seen)
  else (false, ⟨url :: seen.seenUrls⟩)

/-- The filter contains exactly what was inserted. -/
def Crates.FilterExact {Url : Type} (crates : Crates Url) : Prop :=
  ∀ seen url, crates.bloomContains seen url = true ↔ url ∈ seen

namespace SeenUrls

variable {Url : Type} {crates : Crates Url} (exact : crates.FilterExact) (seen : SeenUrls Url)
  {url : Url}

include exact

/-- An exact filter answers whether the URL was inserted before. -/
theorem insertUrl_fst : (seen.insertUrl crates url).1 = true ↔ url ∈ seen.seenUrls := by
  rw [← exact seen.seenUrls url, insertUrl]
  split
  · exact iff_of_true rfl ‹_›
  · exact iff_of_false nofun ‹_›

theorem mem_insertUrl {other : Url} :
    other ∈ (seen.insertUrl crates url).2.seenUrls ↔ other = url ∨ other ∈ seen.seenUrls := by
  rw [insertUrl]
  split
  · rename_i contained
    refine ⟨Or.inr, ?_⟩
    rintro (rfl | member)
    · exact (exact seen.seenUrls other).mp contained
    · exact member
  · exact List.mem_cons

/-- A URL that was inserted before is not inserted again. -/
theorem insertUrl_of_mem (member : url ∈ seen.seenUrls) : seen.insertUrl crates url = (true, seen) := by
  rw [insertUrl, if_pos ((exact seen.seenUrls url).mpr member)]

end SeenUrls

/-- The filter of the sample web is exact. -/
theorem filterExact_sample : sampleCrates.FilterExact := fun _ _ => decide_eq_true_iff

/-- The storage service. -/
structure CrawlerStorage (Url : Type) where
  seenUrls : SeenUrls Url
  db : CrawlerDb
  domainCache : DomainCache
  agentName : String
  dedup : ContentDeduplicator
  savedCounter : BitVec 64

namespace CrawlerStorage

variable {Url : Type} (crates : Crates Url)

/-- The state a service starts with. -/
def started (hashes : List (BitVec 64)) (db : CrawlerDb) (userAgent : String) :
    CrawlerStorage Url where
  seenUrls := ⟨[]⟩
  db := db
  domainCache := DomainCache.new
  agentName := userAgent
  dedup := ContentDeduplicator.init hashes 3
  savedCounter := 0

/-- The service started on a database. `pathExists` is what `Path::new(db_name).exists()` says:
only then are the stored hashes loaded. -/
def new (pathExists : Bool) (db : CrawlerDb) (faults : DbFaults) (userAgent : String) :
    Outcome (CrawlerStorage Url) :=
  let hashes : Outcome (List (BitVec 64)) :=
    if pathExists then db.getSimhashes faults else .ok []
  match hashes with
  | .error abort => .error abort
  | .ok hashes => .ok (started hashes db userAgent)

theorem new_ok {pathExists : Bool} {db : CrawlerDb} {faults : DbFaults} {userAgent : String}
    {storage : CrawlerStorage Url} (built : new pathExists db faults userAgent = .ok storage) :
    storage = started (if pathExists then db.simhashes else []) db userAgent := by
  cases pathExists with
  | false =>
    cases built
    rfl
  | true =>
    unfold new at built
    simp only [if_true] at built ⊢
    cases loaded : db.getSimhashes faults with
    | error abort =>
      rw [loaded] at built
      cases built
    | ok hashes =>
      rw [loaded] at built
      obtain rfl := Except.ok.inj (queryWithRetry_ok loaded)
      cases built
      rfl

/-- A file that does not exist is opened as an empty database, so the service starts with the
stored hashes either way. -/
theorem new_of_plainPath {pathExists : Bool} {db : CrawlerDb} {faults : DbFaults}
    {userAgent : String} {storage : CrawlerStorage Url}
    (plainPath : pathExists = false → db = CrawlerDb.empty)
    (built : new pathExists db faults userAgent = .ok storage) :
    storage = started db.simhashes db userAgent := by
  rw [new_ok built]
  cases pathExists with
  | true => rfl
  | false =>
    rw [plainPath rfl]
    rfl

/-- Without failing attempts the service starts. -/
theorem new_faultless (db : CrawlerDb) (userAgent : String) :
    (new true db DbFaults.none userAgent : Outcome (CrawlerStorage Url)) =
      .ok (started db.simhashes db userAgent) := by
  have loaded : db.getSimhashes DbFaults.none = .ok db.simhashes :=
    queryWithRetry_none db.simhashes
  simp only [new, if_true, loaded]

/-! ### Reading a domain -/

/-- The cached data of a domain: from the cache, or else from the database, which fills the
cache. The three readers below share it. -/
def cachedOrStored (storage : CrawlerStorage Url) (faults : DbFaults) (domain : String) :
    Outcome (Option CachedData) × CrawlerStorage Url :=
  match storage.domainCache.getCachedDomain domain with
  | some data => (.ok (some data), storage)
  | none =>
    match storage.db.getCacheInfoAboutDomain crates faults domain storage.agentName with
    | .error abort => (.error abort, storage)
    | .ok none => (.ok none, storage)
    | .ok (some data) =>
      (.ok (some data), { storage with domainCache := storage.domainCache.addDomain domain data })

def getDomainId (storage : CrawlerStorage Url) (faults : DbFaults) (domain : String) :
    Outcome (Option Int) × CrawlerStorage Url :=
  let found := storage.cachedOrStored crates faults domain
  (found.1.map (Option.map CachedData.id), found.2)

/-- The answer for a path, given what is known of its domain. -/
def accessOf (path : String) : Option CachedData → UrlAccess
  | none => .unknownDomain
  | some data =>
    match data.robot with
    | some robot => if robot.allowed path then .allowed else .disallowed
    | none => .allowed

def checkIfUrlAllowed (storage : CrawlerStorage Url) (faults : DbFaults) (url : Url) :
    Outcome UrlAccess × CrawlerStorage Url :=
  match crates.url.domain url with
  | none => (.ok .urlWithoutHost, storage)
  | some domain =>
    let found := storage.cachedOrStored crates faults domain
    (found.1.map (accessOf (crates.url.path url)), found.2)

/-- The id that is found is that of the entry that is found. -/
theorem getDomainId_ok_iff {storage : CrawlerStorage Url} {faults : DbFaults} {host : String}
    {id : Int} : (storage.getDomainId crates faults host).1 = .ok (some id) ↔
      ∃ entry, (storage.cachedOrStored crates faults host).1 = .ok (some entry) ∧
        entry.id = id := by
  simp only [getDomainId]
  cases (storage.cachedOrStored crates faults host).1 with
  | error abort =>
    constructor
    · intro same
      cases same
    · rintro ⟨_, ⟨⟩, _⟩
  | ok answer =>
    cases answer with
    | none =>
      constructor
      · intro same
        cases same
      · rintro ⟨_, ⟨⟩, _⟩
    | some entry =>
      constructor
      · rintro ⟨⟩
        exact ⟨entry, rfl, rfl⟩
      · rintro ⟨_, ⟨⟩, rfl⟩
        rfl

/-- A domain is not found only when the table has no row of it. -/
theorem cachedOrStored_none {storage : CrawlerStorage Url} {faults : DbFaults} {domain : String}
    (missing : (storage.cachedOrStored crates faults domain).1 = .ok none) :
    storage.db.domains.find? domain = none := by
  unfold cachedOrStored at missing
  split at missing
  · cases missing
  · split at missing
    · cases missing
    · rename_i read
      exact CrawlerDb.getCacheInfo_none crates read
    · cases missing

theorem cachedOrStored_faultless {storage : CrawlerStorage Url} {faults : DbFaults}
    {domain : String} {data : Option CachedData}
    (found : (storage.cachedOrStored crates faults domain).1 = .ok data) :
    (storage.cachedOrStored crates DbFaults.none domain).1 = .ok data := by
  unfold cachedOrStored at found ⊢
  cases cached : storage.domainCache.getCachedDomain domain with
  | some entry =>
    rw [cached] at found
    exact found
  | none =>
    rw [cached] at found
    cases read : storage.db.getCacheInfoAboutDomain crates faults domain storage.agentName with
    | error abort =>
      rw [read] at found
      cases found
    | ok entry =>
      rw [read] at found
      rw [CrawlerDb.getCacheInfo_faultless crates read]
      cases entry <;> exact found

/-- The ways in which a check answers. -/
theorem checkIfUrlAllowed_ok {storage : CrawlerStorage Url} {faults : DbFaults} {url : Url}
    {access : UrlAccess} (answered : (storage.checkIfUrlAllowed crates faults url).1 = .ok access) :
    (crates.url.domain url = none ∧ access = .urlWithoutHost) ∨
      ∃ domain data, crates.url.domain url = some domain ∧
        (storage.cachedOrStored crates faults domain).1 = .ok data ∧
        access = accessOf (crates.url.path url) data := by
  cases host : crates.url.domain url with
  | none =>
    simp only [checkIfUrlAllowed, host, Except.ok.injEq] at answered
    exact Or.inl ⟨rfl, answered.symm⟩
  | some domain =>
    simp only [checkIfUrlAllowed, host] at answered
    cases found : (storage.cachedOrStored crates faults domain).1 with
    | error abort =>
      rw [found] at answered
      cases answered
    | ok data =>
      rw [found] at answered
      exact Or.inr ⟨domain, data, rfl, found, (Except.ok.inj answered).symm⟩

theorem accessOf_unknownDomain {path : String} {data : Option CachedData}
    (unknown : accessOf path data = .unknownDomain) : data = none := by
  unfold accessOf at unknown
  split at unknown
  · rfl
  · split at unknown
    · split at unknown <;> cases unknown
    · cases unknown

theorem accessOf_ne_urlWithoutHost (path : String) (data : Option CachedData) :
    accessOf path data ≠ .urlWithoutHost := by
  unfold accessOf
  split
  · exact nofun
  · split
    · split <;> exact nofun
    · exact nofun

/-- A domain is unknown only when the table has no row of it. -/
theorem checkIfUrlAllowed_unknownDomain {storage : CrawlerStorage Url} {faults : DbFaults}
    {url : Url}
    (unknown : (storage.checkIfUrlAllowed crates faults url).1 = .ok .unknownDomain) :
    ∃ domain, crates.url.domain url = some domain ∧ storage.db.domains.find? domain = none := by
  rcases checkIfUrlAllowed_ok crates unknown with ⟨_, other⟩ | ⟨domain, data, host, found, access⟩
  · cases other
  · obtain rfl := accessOf_unknownDomain access.symm
    exact ⟨domain, host, cachedOrStored_none crates found⟩

/-- What a check answers does not depend on attempts that fail. -/
theorem checkIfUrlAllowed_faultless {storage : CrawlerStorage Url} {faults : DbFaults} {url : Url}
    {access : UrlAccess} (answered : (storage.checkIfUrlAllowed crates faults url).1 = .ok access) :
    (storage.checkIfUrlAllowed crates DbFaults.none url).1 = .ok access := by
  rcases checkIfUrlAllowed_ok crates answered with ⟨host, rfl⟩ | ⟨domain, data, host, found, rfl⟩
  · simp only [checkIfUrlAllowed, host]
  · simp only [checkIfUrlAllowed, host, cachedOrStored_faultless crates found]
    rfl

theorem checkIfUrlAllowed_urlWithoutHost {storage : CrawlerStorage Url} {faults : DbFaults}
    {url : Url}
    (stray : (storage.checkIfUrlAllowed crates faults url).1 = .ok .urlWithoutHost) :
    crates.url.domain url = none := by
  rcases checkIfUrlAllowed_ok crates stray with ⟨host, _⟩ | ⟨domain, data, _, _, access⟩
  · exact host
  · exact absurd access.symm (accessOf_ne_urlWithoutHost _ _)

/-- The delay of an unknown domain is one second. -/
def getDelay (storage : CrawlerStorage Url) (faults : DbFaults) (domain : String) :
    Outcome Duration × CrawlerStorage Url :=
  let found := storage.cachedOrStored crates faults domain
  (found.1.map fun data => (data.map CachedData.delay).getD (10 ^ 9), found.2)

/-! ### Saving events -/

def insertUrlInSeenUrls (storage : CrawlerStorage Url) (url : Url) : Bool × CrawlerStorage Url :=
  let inserted := storage.seenUrls.insertUrl crates url
  (inserted.1, { storage with seenUrls := inserted.2 })

/-- The table write of a page save. -/
def writePage (storage : CrawlerStorage Url) (faults : DbFaults) (domId : Int)
    (page : ParsedPageSaveData) (hash : Option (BitVec 64)) :
    Outcome Unit × CrawlerStorage Url :=
  match storage.db.saveParsedPage faults domId page hash with
  | .error abort => (.error abort, storage)
  | .ok db => (.ok (), { storage with db })

/-- The index is written before the table. -/
def saveParsedPage (storage : CrawlerStorage Url) (faults : DbFaults) (domId : Int)
    (page : ParsedPageSaveData) : Outcome Unit × CrawlerStorage Url :=
  match page.cleanText with
  | some txt =>
    if storage.dedup.isDuplicate crates txt then (.ok (), storage)
    else
      let inserted := storage.dedup.insert crates txt
      { storage with dedup := inserted.2 }.writePage faults domId page (some inserted.1)
  | none => storage.writePage faults domId page none

/-- The table is written before the entry is built and cached. -/
def saveDomain (storage : CrawlerStorage Url) (faults : DbFaults) (data : DomainDataSaveData) :
    Outcome (List String) × CrawlerStorage Url :=
  match storage.db.saveDomain faults data with
  | .error abort => (.error abort, storage)
  | .ok (id, db) =>
    match CachedData.new crates id data.robots data.delay storage.agentName with
    | .error abort => (.error abort, { storage with db })
    | .ok entry =>
      let domainCache := storage.domainCache.addDomain data.domainString entry
      (.ok (domainCache.getSitemaps data.domainString), { storage with db, domainCache })

/-- The page branch of `save_parsed_data` once the domain of the page is known. -/
def savePageOfDomain (storage : CrawlerStorage Url) (faults : DbFaults) (host : String)
    (page : ParsedPageSaveData) : Outcome (List String) × CrawlerStorage Url :=
  let found := storage.getDomainId crates faults host
  match found.1 with
  | .error abort => (.error abort, found.2)
  | .ok none => (.error (.error .urlDoesntContainDomain), found.2)
  | .ok (some id) =>
    let saved := found.2.saveParsedPage crates faults id page
    match saved.1 with
    | .error abort => (.error abort, saved.2)
    | .ok _ => (.ok [], { saved.2 with savedCounter := saved.2.savedCounter + 1 })

/-- A page URL that does not parse is a panic: the source unwraps it. -/
def saveParsedData (storage : CrawlerStorage Url) (faults : DbFaults) (data : ParsedData) :
    Outcome (List String) × CrawlerStorage Url :=
  match data with
  | .parsedPage page =>
    match crates.url.parse page.url with
    | .error _ => (.error .panicked, storage)
    | .ok url =>
      match crates.url.domain url with
      | none => (.error (.error .urlDoesntContainDomain), storage)
      | some host => storage.savePageOfDomain crates faults host page
  | .parsedDomain data => storage.saveDomain crates faults data

end CrawlerStorage

end PoliteCrawler
