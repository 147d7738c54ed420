/-
This file proves what the stored page hashes and the near-duplicate index have
to do with each other over whole runs of the storage service.

A run takes the operations one at a time: events, with any failing database
attempts, the lookups of the gRPC side, evictions, and restarts on the same
database file. The index always covers the hashes of the table, so a page is
written only when it is far from every stored page.
-/

import PoliteCrawler.SavedEvents
import PoliteCrawler.Transition

namespace PoliteCrawler

open CrawlerDb ContentDeduplicator

section Invariants

variable {Url : Type} (crates : Crates Url)

/-! ### The index covers the table -/

/-- Every stored hash is in the index. -/
structure IndexCovers (storage : CrawlerStorage Url) : Prop where
  dist : storage.dedup.maxDist = 3
  covers : ∀ hash ∈ storage.db.simhashes, hash ∈ storage.dedup.hashes

theorem indexCovers_started (db : CrawlerDb) (userAgent : String) :
    IndexCovers (CrawlerStorage.started db.simhashes db userAgent : CrawlerStorage Url) where
  dist := rfl
  covers hash member := by
    show hash ∈ (ContentDeduplicator.init db.simhashes 3).hashes
    rw [hashes_init]
    exact member

/-- A hash of the table after a page upsert is the written one or was in the table. -/
theorem simhashes_upsertPage_subset {db : CrawlerDb} {domId : Int} {page : ParsedPageSaveData}
    {written : Option (BitVec 64)} {hash : BitVec 64}
    (member : hash ∈ (db.upsertPage (pageRow domId page written)).simhashes) :
    written = some hash ∨ hash ∈ db.simhashes := by
  rcases mem_simhashes_upsertPage.mp member with rfl | ⟨row, old, _, column⟩
  · exact Or.inl rfl
  · exact Or.inr (mem_simhashes.mpr ⟨row, old, column⟩)

/-- Failed writes leave hashes in the index that the table lacks, never the other way round. -/
theorem Saved.indexCovers {before after : CrawlerStorage Url} {faults : DbFaults}
    {data : ParsedData} {result : Outcome (List String)}
    (saved : Saved crates before faults data result after) (covered : IndexCovers before) :
    IndexCovers after := by
  cases saved with
  | refused | duplicate | blankUnwritten | domainRefused => exact ⟨covered.dist, covered.covers⟩
  | domainUncached | domainSaved => exact ⟨covered.dist, covered.covers⟩
  | written identified text fresh =>
    refine ⟨covered.dist, fun hash member => ?_⟩
    rw [hashes_insert]
    rcases simhashes_upsertPage_subset member with same | old
    · exact Or.inl (Option.some.inj same).symm
    · exact Or.inr (covered.covers hash old)
  | unwritten identified text fresh failed =>
    refine ⟨covered.dist, fun hash member => ?_⟩
    rw [hashes_insert]
    exact Or.inr (covered.covers hash member)
  | blank identified text =>
    refine ⟨covered.dist, fun hash member => ?_⟩
    rcases simhashes_upsertPage_subset member with same | old
    · cases same
    · exact covered.covers hash old

/-! ### Stored pages are far apart -/

/-- Two different rows with hashes differ in more than three bits. -/
def PagesApart (db : CrawlerDb) : Prop :=
  ∀ first ∈ db.pages.rows, ∀ second ∈ db.pages.rows, first ≠ second →
    ∀ hash other, first.simhash = some hash → second.simhash = some other →
      3 < hammingDistance hash other

/-- A hash that is not a duplicate is far from every covered hash. -/
theorem far_of_fresh {storage : CrawlerStorage Url} (covered : IndexCovers storage) {txt : String}
    (fresh : storage.dedup.isDuplicate crates txt = false) {hash : BitVec 64}
    (member : hash ∈ storage.dedup.hashes) :
    3 < hammingDistance hash (calculateHash crates txt) := by
  by_contra near
  have duplicate : storage.dedup.isDuplicate crates txt = true :=
    (isDuplicate_iff crates storage.dedup (le_of_eq covered.dist) txt).mpr
      ⟨hash, member, covered.dist ▸ not_lt.mp near⟩
  rw [fresh] at duplicate
  cases duplicate

/-- Upserting a row whose hash, if any, is far from the stored ones keeps the rows apart. -/
theorem pagesApart_upsertPage {db : CrawlerDb} {domId : Int} {page : ParsedPageSaveData}
    {written : Option (BitVec 64)} (apart : PagesApart db)
    (far : ∀ new, written = some new → ∀ hash ∈ db.simhashes, 3 < hammingDistance hash new) :
    PagesApart (db.upsertPage (pageRow domId page written)) := by
  intro first memberFirst second memberSecond different hash other columnFirst columnSecond
  rcases (mem_upsertPage db _).mp memberFirst with rfl | ⟨oldFirst, _⟩ <;>
    rcases (mem_upsertPage db _).mp memberSecond with rfl | ⟨oldSecond, _⟩
  · exact absurd rfl different
  · rw [simhash_pageRow] at columnFirst
    rw [hammingDistance_comm]
    exact far hash columnFirst other (mem_simhashes.mpr ⟨second, oldSecond, columnSecond⟩)
  · rw [simhash_pageRow] at columnSecond
    exact far other columnSecond hash (mem_simhashes.mpr ⟨first, oldFirst, columnFirst⟩)
  · exact apart first oldFirst second oldSecond different hash other columnFirst columnSecond

theorem Saved.pagesApart {before after : CrawlerStorage Url} {faults : DbFaults}
    {data : ParsedData} {result : Outcome (List String)}
    (saved : Saved crates before faults data result after) (covered : IndexCovers before)
    (apart : PagesApart before.db) : PagesApart after.db := by
  cases saved with
  | refused | duplicate | unwritten | blankUnwritten | domainRefused => exact apart
  | domainUncached | domainSaved => exact apart
  | written identified text fresh =>
    refine pagesApart_upsertPage apart fun new same hash member => ?_
    obtain rfl := Option.some.inj same
    exact far_of_fresh crates covered fresh (covered.covers hash member)
  | blank identified text =>
    exact pagesApart_upsertPage apart fun new same => absurd same (Option.some_ne_none new).symm

/-- The invariant of the storage service behind the near-duplicate law. -/
structure CoversApart (storage : CrawlerStorage Url) : Prop where
  covered : IndexCovers storage
  apart : PagesApart storage.db

theorem coversApart_started (db : CrawlerDb) (userAgent : String) (apart : PagesApart db) :
    CoversApart (CrawlerStorage.started db.simhashes db userAgent : CrawlerStorage Url) where
  covered := indexCovers_started db userAgent
  apart := apart

end Invariants

/-! ### The cache and the rows of the domains -/

section CacheFits

variable {Url : Type} (crates : Crates Url)

/-- Every cached domain has a row, and the entry fits the row. -/
def CacheFits (fits : DomainRow → CachedData → Prop) (storage : CrawlerStorage Url) : Prop :=
  ∀ domain entry, storage.domainCache.cache domain = some entry →
    ∃ row, storage.db.domains.find? domain = some row ∧ fits row entry

/-- Every cached domain has a row of the entry's id. -/
abbrev CacheIdentifies : CrawlerStorage Url → Prop :=
  CacheFits fun row entry => row.domId = entry.id

/-- Every cached domain has a row, which reads back as the entry. -/
def CacheAgrees (storage : CrawlerStorage Url) : Prop :=
  CacheFits (fun row entry => cachedRow crates storage.agentName row = .ok entry) storage

theorem cacheFits_started (fits : DomainRow → CachedData → Prop) (db : CrawlerDb)
    (userAgent : String) :
    CacheFits fits (CrawlerStorage.started db.simhashes db userAgent : CrawlerStorage Url) :=
  fun _ _ cached => absurd cached (Option.some_ne_none _).symm

theorem CacheAgrees.identifies {storage : CrawlerStorage Url}
    (agrees : CacheAgrees crates storage) :
    CacheIdentifies storage := by
  intro domain entry cached
  obtain ⟨row, found, built⟩ := agrees domain entry cached
  exact ⟨row, found, (cachedRow_id crates built).symm⟩

variable {fits : DomainRow → CachedData → Prop} {before after : CrawlerStorage Url}

/-- Refreshing the cache keeps it fitting, when what a row reads back as fits the row. -/
theorem CacheFits.refreshed (fit : CacheFits fits before)
    (reads : ∀ row entry, cachedRow crates before.agentName row = .ok entry → fits row entry)
    {domainCache : DomainCache} (refreshed : Refreshed crates before domainCache)
    (domain : String) (entry : CachedData) (cached : domainCache.cache domain = some entry) :
    ∃ row, before.db.domains.find? domain = some row ∧ fits row entry := by
  rcases refreshed domain entry cached with old | ⟨row, found, built⟩
  · exact fit domain entry old
  · exact ⟨row, found, reads row entry built⟩

theorem CacheFits.evict (fit : CacheFits fits before) (idle : String → Bool) :
    CacheFits fits { before with domainCache := before.domainCache.evict idle } :=
  fun domain entry cached => fit domain entry (DomainCache.cache_of_evict cached)

/-- A save keeps the cache fitting, unless it rewrites a row and then fails to build the entry. -/
theorem Saved.cacheFits {faults : DbFaults} {data : ParsedData} {result : Outcome (List String)}
    (saved : Saved crates before faults data result after) (fit : CacheFits fits before)
    (reads : ∀ row entry, cachedRow crates before.agentName row = .ok entry → fits row entry)
    (rewritten : ∀ domainData id abort, data = .parsedDomain domainData →
      before.db.saveDomain faults domainData = .ok (id, before.db.upsertDomain domainData) →
      CachedData.new crates id domainData.robots domainData.delay before.agentName =
        .error abort →
      ∀ old entry, before.db.domains.find? domainData.domainString = some old → fits old entry →
        fits (before.db.domainRow domainData (some old)) entry) :
    CacheFits fits after := by
  cases saved with
  | refused _ filled | duplicate _ _ _ filled | written _ _ _ _ filled =>
    exact fit.refreshed crates reads filled.refreshed
  | unwritten _ _ _ _ filled | blank _ _ _ filled | blankUnwritten _ _ _ filled =>
    exact fit.refreshed crates reads filled.refreshed
  | domainRefused => exact fit
  | @domainUncached domainData id abort stored unbuilt =>
    intro domain entry cached
    obtain ⟨row, found, fitting⟩ := fit domain entry cached
    by_cases same : domain = domainData.domainString
    · subst same
      refine ⟨_, find?_upsertDomain_self _ _, ?_⟩
      rw [found]
      exact rewritten domainData id abort rfl stored unbuilt row entry found fitting
    · exact ⟨row, (find?_upsertDomain_of_ne _ _ same).trans found, fitting⟩
  | @domainSaved domainData new _ built =>
    intro domain entry cached
    rcases DomainCache.cache_of_addDomain cached with ⟨rfl, rfl⟩ | ⟨different, old⟩
    · refine ⟨_, find?_upsertDomain_self _ _, ?_⟩
      exact reads _ _ (cachedRow_domainRow crates _ _ _ _ built)
    · obtain ⟨row, found, fitting⟩ := fit domain entry old
      exact ⟨row, (find?_upsertDomain_of_ne _ _ different).trans found, fitting⟩

/-- An entry that a lookup returns was cached or is read off the row of its domain. -/
theorem cachedOrStored_some {faults : DbFaults} {domain : String} {entry : CachedData}
    (found : (before.cachedOrStored crates faults domain).1 = .ok (some entry)) :
    before.domainCache.cache domain = some entry ∨
      ∃ row, before.db.domains.find? domain = some row ∧
        cachedRow crates before.agentName row = .ok entry := by
  unfold CrawlerStorage.cachedOrStored at found
  split at found
  · rename_i data cached
    cases found
    exact Or.inl cached
  · split at found
    · cases found
    · cases found
    · rename_i data read
      cases found
      exact Or.inr (getCacheInfo_some crates read)

/-- An id that a lookup returns is that of the domain's row. -/
theorem getDomainId_row {faults : DbFaults} {host : String} {id : Int}
    (fit : CacheIdentifies before)
    (found : (before.getDomainId crates faults host).1 = .ok (some id)) :
    ∃ row, before.db.domains.find? host = some row ∧ row.domId = id := by
  obtain ⟨entry, looked, rfl⟩ := (CrawlerStorage.getDomainId_ok_iff crates).mp found
  rcases cachedOrStored_some crates looked with cached | ⟨row, stored, built⟩
  · exact fit host entry cached
  · exact ⟨row, stored, (cachedRow_id crates built).symm⟩

/-- The id under which a page is saved has a row. -/
theorem Identified.stored {faults : DbFaults} {page : ParsedPageSaveData} {id : Int}
    (identified : Identified crates before faults page id) (fit : CacheIdentifies before) :
    id ∈ before.db.domains.rows.map DomainRow.domId := by
  obtain ⟨url, host, _, _, found⟩ := identified
  obtain ⟨row, stored, same⟩ := getDomainId_row crates fit found
  exact List.mem_map.mpr ⟨row, (before.db.domains.find?_eq_some_iff.mp stored).1, same⟩

/-- The event can be saved. A page needs a known domain, and a write unless its text is a
duplicate; a domain needs a write, a robots text that parses and a delay that converts. -/
def Savable (storage : CrawlerStorage Url) (faults : DbFaults) : ParsedData → Prop
  | .parsedPage page => (∃ id, Identified crates storage faults page id) ∧
      (writtenHash crates storage.dedup page = none ∨ allFail faults.write = false)
  | .parsedDomain data =>
    allFail faults.write = false ∧ Convertible crates storage.agentName data

/-- A save returns `Ok` exactly for the events that can be saved. -/
theorem Saved.ok_iff {faults : DbFaults} {data : ParsedData} {result : Outcome (List String)}
    (saved : Saved crates before faults data result after) (fit : CacheIdentifies before) :
    (∃ answer, result = .ok answer) ↔ Savable crates before faults data := by
  cases saved with
  | refused unidentified _ =>
    exact iff_of_false (fun ⟨_, same⟩ => by cases same)
      fun ⟨⟨id, identified⟩, _⟩ => unidentified id identified
  | @duplicate page id _ _ _ identified text known _ =>
    exact iff_of_true ⟨_, rfl⟩
      ⟨⟨id, identified⟩, Or.inl (by simp only [writtenHash, text, known, if_true])⟩
  | written identified _ _ stored _ | blank identified _ stored _ =>
    exact iff_of_true ⟨_, rfl⟩ ⟨⟨_, identified⟩,
      Or.inr (not_allFail_of_saveParsedPage (identified.stored crates fit) stored)⟩
  | unwritten identified text fresh failed _ =>
    refine iff_of_false (fun ⟨_, same⟩ => by cases same) fun ⟨_, write⟩ => ?_
    have fails := allFail_of_saveParsedPage (identified.stored crates fit) failed
    simp [writtenHash, text, fresh, fails] at write
  | blankUnwritten identified text failed _ =>
    refine iff_of_false (fun ⟨_, same⟩ => by cases same) fun ⟨_, write⟩ => ?_
    have fails := allFail_of_saveParsedPage (identified.stored crates fit) failed
    simp [writtenHash, text, fails] at write
  | domainRefused failed =>
    refine iff_of_false (fun ⟨_, same⟩ => by cases same) fun ⟨succeeds, _⟩ => ?_
    rw [saveDomain_eq, if_neg (Bool.eq_false_iff.mp succeeds)] at failed
    cases failed
  | domainUncached _ unbuilt =>
    refine iff_of_false (fun ⟨_, same⟩ => by cases same) fun ⟨_, convertible⟩ => ?_
    obtain ⟨entry, built⟩ := (CachedData.new_ok_iff crates).mpr convertible
    cases built.symm.trans unbuilt
  | domainSaved stored built =>
    refine iff_of_true ⟨_, rfl⟩ ⟨?_, (CachedData.new_ok_iff crates).mp ⟨_, built⟩⟩
    by_contra fails
    rw [saveDomain_eq, if_pos (by simpa using fails)] at stored
    cases stored

end CacheFits

/-! ### Runs -/

/-- The requests that write no table. -/
inductive Lookup (Url : Type)
  | check (url : Url) (faults : DbFaults)
  | delay (domain : String) (faults : DbFaults)
  | insertUrl (url : Url)
  | evict (idle : String → Bool)

/-- The operations on a storage service. -/
inductive StorageOp (Url : Type)
  | save (data : ParsedData) (faults : DbFaults)
  | lookup (request : Lookup Url)
  | restart (faults : DbFaults)

section Runs

variable {Url : Type} (crates : Crates Url)

/-- The state after a lookup. -/
def CrawlerStorage.afterLookup (storage : CrawlerStorage Url) : Lookup Url → CrawlerStorage Url
  | .check url faults => (storage.checkIfUrlAllowed crates faults url).2
  | .delay domain faults => (storage.getDelay crates faults domain).2
  | .insertUrl url => (storage.insertUrlInSeenUrls crates url).2
  | .evict idle => { storage with domainCache := storage.domainCache.evict idle }

/-- One operation. A restart is on the file the service has been writing, and is no step when
the service does not come up. -/
def storageStep : StorageOp Url → CrawlerStorage Url → Option (CrawlerStorage Url)
  | .save data faults, storage => some (storage.saveParsedData crates faults data).2
  | .lookup request, storage => some (storage.afterLookup crates request)
  | .restart faults, storage =>
    match CrawlerStorage.new true storage.db faults storage.agentName with
    | .ok restarted => some restarted
    | .error _ => none

/-- The service of the sample web on a file that does not exist. -/
def sampleStorage : CrawlerStorage SampleUrl :=
  CrawlerStorage.started [] CrawlerDb.empty "EDUCATIONAL_CRAWLER"

/-- A service of the sample web without failing database calls takes the events in turn. -/
def sampleSaves (events : List ParsedData) : List (StorageOp SampleUrl) :=
  events.map fun data => .save data DbFaults.none

/-- A lookup changes nothing but the seen URLs and the cache. -/
theorem afterLookup_state (storage : CrawlerStorage Url) (request : Lookup Url) :
    ∃ seenUrls domainCache, Refreshed crates storage domainCache ∧
      storage.afterLookup crates request = { storage with seenUrls, domainCache } := by
  cases request with
  | check url faults =>
    simp only [CrawlerStorage.afterLookup]
    unfold CrawlerStorage.checkIfUrlAllowed
    cases crates.url.domain url with
    | none => exact ⟨_, _, (Filled.same crates storage).refreshed, rfl⟩
    | some domain =>
      obtain ⟨domainCache, filled, state⟩ := cachedOrStored_state crates storage faults domain
      exact ⟨_, domainCache, filled.refreshed, state⟩
  | delay domain faults =>
    obtain ⟨domainCache, filled, state⟩ := cachedOrStored_state crates storage faults domain
    exact ⟨_, domainCache, filled.refreshed, state⟩
  | insertUrl url => exact ⟨_, _, (Filled.same crates storage).refreshed, rfl⟩
  | evict idle =>
    exact ⟨storage.seenUrls, _, fun domain entry cached =>
      Or.inl (DomainCache.cache_of_evict cached), rfl⟩

/-- Every operation saves an event, restarts, or leaves the tables and the index alone. -/
theorem storageStep_cases {op : StorageOp Url} {before after : CrawlerStorage Url}
    (moved : storageStep crates op before = some after) :
    (∃ data faults, op = .save data faults ∧
        Saved crates before faults data (before.saveParsedData crates faults data).1 after) ∨
      after = CrawlerStorage.started before.db.simhashes before.db before.agentName ∨
      ∃ seenUrls domainCache, Refreshed crates before domainCache ∧
        after = { before with seenUrls, domainCache } := by
  cases op with
  | save data faults =>
    cases moved
    exact Or.inl ⟨data, faults, rfl, saveParsedData_saved crates before faults data⟩
  | lookup request =>
    cases moved
    exact Or.inr (Or.inr (afterLookup_state crates before request))
  | restart faults =>
    simp only [storageStep] at moved
    split at moved
    · rename_i restarted built
      cases moved
      exact Or.inr (Or.inl (CrawlerStorage.new_ok built))
    · cases moved

/-- The cache identifies the domains over every run, torn saves included: a rewritten row keeps
its id. -/
theorem storageStep_cacheIdentifies {op : StorageOp Url} {before after : CrawlerStorage Url}
    (fit : CacheIdentifies before) (moved : storageStep crates op before = some after) :
    CacheIdentifies after := by
  have reads : ∀ row entry, cachedRow crates before.agentName row = .ok entry →
      row.domId = entry.id := fun row entry built => (cachedRow_id crates built).symm
  rcases storageStep_cases crates moved with
    ⟨data, faults, rfl, saved⟩ | rfl | ⟨_, _, refreshed, rfl⟩
  · exact saved.cacheFits crates fit reads fun _ _ _ _ _ _ _ _ _ same => same
  · exact cacheFits_started _ _ _
  · exact fit.refreshed crates reads refreshed

theorem storageStep_indexCovers {op : StorageOp Url} {before after : CrawlerStorage Url}
    (covered : IndexCovers before) (moved : storageStep crates op before = some after) :
    IndexCovers after := by
  rcases storageStep_cases crates moved with ⟨data, faults, _, saved⟩ | rfl | ⟨_, _, _, rfl⟩
  · exact saved.indexCovers crates covered
  · exact indexCovers_started _ _
  · exact ⟨covered.dist, covered.covers⟩

theorem storageStep_coversApart {op : StorageOp Url} {before after : CrawlerStorage Url}
    (kept : CoversApart before) (moved : storageStep crates op before = some after) :
    CoversApart after where
  covered := storageStep_indexCovers crates kept.covered moved
  apart := by
    rcases storageStep_cases crates moved with ⟨data, faults, _, saved⟩ | rfl | ⟨_, _, _, rfl⟩
    · exact saved.pagesApart crates kept.covered kept.apart
    · exact kept.apart
    · exact kept.apart

/-- Over every run, with failing writes, repeated URLs and restarts, the stored pages stay
pairwise more than three bits apart. -/
theorem pages_stay_apart {pathExists : Bool} {db : CrawlerDb} {faults : DbFaults}
    {userAgent : String} {first last : CrawlerStorage Url} (apart : PagesApart db)
    (plainPath : pathExists = false → db = CrawlerDb.empty)
    (built : CrawlerStorage.new pathExists db faults userAgent = .ok first)
    (reached : Transition.Reaches (storageStep crates) first last) : PagesApart last.db := by
  have start := CrawlerStorage.new_of_plainPath plainPath built
  exact (reached.invariant (start ▸ coversApart_started db userAgent apart)
    fun _ _ _ kept _ moved => storageStep_coversApart crates kept moved).apart

/-- A page, a second one whose write fails, a restart, and the second one again. -/
def sampleRetry : List (StorageOp SampleUrl) :=
  sampleSaves [sampleDomainEvent, .parsedPage (samplePage .home "a")] ++
    [.save (.parsedPage (samplePage .about "")) ⟨fun _ => false, fun _ => true⟩,
      .restart DbFaults.none, .save (.parsedPage (samplePage .about "")) DbFaults.none]

theorem pages_stay_apart_sampleRetry : ∃ last : CrawlerStorage SampleUrl,
    Transition.run (storageStep sampleCrates) sampleRetry sampleStorage = some last ∧
      last.db.pages.rows.length = 2 ∧ PagesApart last.db := by
  obtain ⟨last, ran⟩ : ∃ last,
      Transition.run (storageStep sampleCrates) sampleRetry sampleStorage = some last := ⟨_, rfl⟩
  have stored : (Transition.run (storageStep sampleCrates) sampleRetry sampleStorage).map
      (fun storage => storage.db.pages.rows.length) = some 2 := by decide +kernel
  rw [ran] at stored
  have built : CrawlerStorage.new false CrawlerDb.empty DbFaults.none "EDUCATIONAL_CRAWLER" =
      .ok sampleStorage := rfl
  exact ⟨last, ran, Option.some.inj stored,
    pages_stay_apart sampleCrates (fun _ member => absurd member List.not_mem_nil) (fun _ => rfl)
      built (Transition.reaches_of_run ran)⟩

end Runs

end PoliteCrawler
