/-
This file says when a failed `save_parsed_data` leaves the storage service as it
was.

A page save writes the index and then the table, a domain save writes the table
and then builds the cache entry. A failure between the two writes tears the
save: `TearsSave` describes the two ways. In runs without them every failed save
leaves the answers of the index, the tables and the agreement of the cache, and
may be repeated once the fault is gone.
-/

import PoliteCrawler.StorageRuns

namespace PoliteCrawler

open CrawlerDb ContentDeduplicator

/-! ### Repeating a failed save -/

section Retry

variable {Url : Type} (crates : Crates Url)

/-- A page save does not look at the cache. -/
theorem saveParsedPage_withCache (storage : CrawlerStorage Url) (faults : DbFaults) (id : Int)
    (page : ParsedPageSaveData) (domainCache : DomainCache) :
    ({ storage with domainCache } : CrawlerStorage Url).saveParsedPage crates faults id page =
      ((storage.saveParsedPage crates faults id page).1,
        { (storage.saveParsedPage crates faults id page).2 with domainCache }) := by
  unfold CrawlerStorage.saveParsedPage CrawlerStorage.writePage
  cases page.cleanText with
  | none => cases storage.db.saveParsedPage faults id page none <;> rfl
  | some txt =>
    cases known : storage.dedup.isDuplicate crates txt with
    | true => simp only [known, if_true]
    | false =>
      simp only [known, Bool.false_eq_true, if_false]
      cases storage.db.saveParsedPage faults id page (some (storage.dedup.insert crates txt).1) <;>
        rfl

/-- Once the domain is found, the outcome and the database of a page save are those of the
write. -/
theorem savePageOfDomain_of_found {storage : CrawlerStorage Url} {faults : DbFaults}
    {host : String} {id : Int} (page : ParsedPageSaveData)
    (found : (storage.getDomainId crates faults host).1 = .ok (some id)) :
    (storage.savePageOfDomain crates faults host page).1 =
        (storage.saveParsedPage crates faults id page).1.map (fun _ => []) ∧
      (storage.savePageOfDomain crates faults host page).2.db =
        (storage.saveParsedPage crates faults id page).2.db := by
  obtain ⟨domainCache, _, state⟩ := cachedOrStored_state crates storage faults host
  have stateId : (storage.getDomainId crates faults host).2 = { storage with domainCache } := state
  unfold CrawlerStorage.savePageOfDomain
  simp only [found, stateId, saveParsedPage_withCache]
  cases (storage.saveParsedPage crates faults id page).1 <;> exact ⟨rfl, rfl⟩

/-- A lookup that finds an id from some cache finds it from the filled cache too. -/
theorem getDomainId_filled {healthy : Crates Url} {storage : CrawlerStorage Url}
    {domainCache : DomainCache} {faults : DbFaults} {host : String} {id : Int}
    (filled : Filled crates storage domainCache) (fit : CacheIdentifies storage)
    (found : (storage.getDomainId healthy faults host).1 = .ok (some id)) :
    (({ storage with domainCache } : CrawlerStorage Url).getDomainId healthy faults host).1 =
      .ok (some id) := by
  cases cached : domainCache.cache host with
  | none =>
    have missing : storage.domainCache.cache host = none := by
      cases old : storage.domainCache.cache host with
      | none => rfl
      | some entry => exact (filled.kept host entry old).symm.trans cached
    unfold CrawlerStorage.getDomainId CrawlerStorage.cachedOrStored at found ⊢
    simp only [DomainCache.getCachedDomain, missing, cached] at found ⊢
    cases read : storage.db.getCacheInfoAboutDomain healthy faults host storage.agentName with
    | error abort => simpa only [read] using found
    | ok answer => cases answer <;> simpa only [read] using found
  | some entry =>
    have same : entry.id = id := by
      obtain ⟨row, stored, rowId⟩ := getDomainId_row healthy fit found
      obtain ⟨other, storedOther, otherId⟩ := fit.refreshed crates
        (fun _ _ built => (cachedRow_id crates built).symm) filled.refreshed host entry cached
      obtain rfl : row = other := Option.some.inj (stored.symm.trans storedOther)
      exact otherId.symm.trans rowId
    unfold CrawlerStorage.getDomainId CrawlerStorage.cachedOrStored
    simp only [DomainCache.getCachedDomain, cached, ← same]
    rfl

/-- An event that can be saved from a state can be saved after a lookup filled the cache, with the
same database after it. -/
theorem saveParsedData_filled {healthy : Crates Url} {storage : CrawlerStorage Url}
    {domainCache : DomainCache} {faults : DbFaults} {data : ParsedData} {answer : List String}
    (filled : Filled crates storage domainCache) (fit : CacheIdentifies storage)
    (saved : (storage.saveParsedData healthy faults data).1 = .ok answer) :
    (∃ again, (({ storage with domainCache } : CrawlerStorage Url).saveParsedData healthy faults
        data).1 = .ok again) ∧
      (({ storage with domainCache } : CrawlerStorage Url).saveParsedData healthy faults
        data).2.db = (storage.saveParsedData healthy faults data).2.db := by
  cases data with
  | parsedDomain data =>
    simp only [CrawlerStorage.saveParsedData, CrawlerStorage.saveDomain] at saved ⊢
    cases stored : storage.db.saveDomain faults data with
    | error abort =>
      simp only [stored] at saved
      cases saved
    | ok written =>
      simp only [stored] at saved ⊢
      cases built : CachedData.new healthy written.1 data.robots data.delay storage.agentName with
      | error abort =>
        simp only [built] at saved
        cases saved
      | ok entry => exact ⟨⟨_, rfl⟩, rfl⟩
  | parsedPage page =>
    simp only [CrawlerStorage.saveParsedData] at saved ⊢
    cases parsed : healthy.url.parse page.url with
    | error reason =>
      simp only [parsed] at saved
      cases saved
    | ok url =>
      cases hosted : healthy.url.domain url with
      | none =>
        simp only [parsed, hosted] at saved
        cases saved
      | some host =>
        simp only [parsed, hosted] at saved ⊢
        have identified : ∃ id, (storage.getDomainId healthy faults host).1 = .ok (some id) := by
          cases found : (storage.getDomainId healthy faults host).1 with
          | error abort =>
            simp only [CrawlerStorage.savePageOfDomain, found] at saved
            cases saved
          | ok answer =>
            cases answer with
            | none =>
              simp only [CrawlerStorage.savePageOfDomain, found] at saved
              cases saved
            | some id => exact ⟨id, rfl⟩
        obtain ⟨id, found⟩ := identified
        obtain ⟨outcome, database⟩ := savePageOfDomain_of_found healthy page found
        obtain ⟨outcomeFilled, databaseFilled⟩ := savePageOfDomain_of_found healthy page
          (getDomainId_filled crates filled fit found)
        rw [saveParsedPage_withCache] at outcomeFilled databaseFilled
        exact ⟨⟨answer, outcomeFilled.trans (outcome.symm.trans saved)⟩,
          databaseFilled.trans database.symm⟩

end Retry

/-! ### Torn saves -/

section Torn

variable {Url : Type} (crates : Crates Url)

/-- A save that fails between its two writes. For a page: its text is new, so the index takes it,
and all write attempts fail. For a domain: the row is written and differs from the old one, and
the entry cannot be built. -/
def TearsSave (before : CrawlerStorage Url) (faults : DbFaults) : ParsedData → Prop
  | .parsedPage page => allFail faults.write = true ∧
      (∃ id, Identified crates before faults page id) ∧
      ∃ txt, page.cleanText = some txt ∧ before.dedup.isDuplicate crates txt = false
  | .parsedDomain data => allFail faults.write = false ∧
      ¬ Convertible crates before.agentName data ∧
      before.db.domains.find? data.domainString ≠
        some (before.db.domainRow data (before.db.domains.find? data.domainString))

/-- What a failed save of an event leaves: the answers of the index, the tables, and a cache that
agrees with the rows; and once the fault is gone the event is saved into the tables it would have
been saved into at first. -/
structure LeavesStorage (before after : CrawlerStorage Url) (data : ParsedData) : Prop where
  answers : ∀ txt, after.dedup.isDuplicate crates txt = before.dedup.isDuplicate crates txt
  pages : after.db.pages = before.db.pages
  domains : after.db.domains = before.db.domains
  cache : CacheAgrees crates after
  retry : ∀ (robotNew : String → String → Option Robot) (faults : DbFaults) (answer : List String),
    (before.saveParsedData { crates with robotNew } faults data).1 = .ok answer →
      (∃ again, (after.saveParsedData { crates with robotNew } faults data).1 = .ok again) ∧
        SameTables (after.saveParsedData { crates with robotNew } faults data).2.db
          (before.saveParsedData { crates with robotNew } faults data).2.db

/-- A save that does not return `Ok` leaves the storage. -/
def AtomicOnError (before : CrawlerStorage Url) (faults : DbFaults) (data : ParsedData) : Prop :=
  ∀ abort, (before.saveParsedData crates faults data).1 = .error abort →
    LeavesStorage crates before (before.saveParsedData crates faults data).2 data

/-- A lookup leaves the storage. -/
theorem leavesStorage_filled {before : CrawlerStorage Url} {domainCache : DomainCache}
    {data : ParsedData} (agrees : CacheAgrees crates before)
    (filled : Filled crates before domainCache) :
    LeavesStorage crates before { before with domainCache } data where
  answers _ := rfl
  pages := rfl
  domains := rfl
  cache := agrees.refreshed crates (fun _ _ built => built) filled.refreshed
  retry _ _ _ saved := by
    obtain ⟨succeeds, database⟩ :=
      saveParsedData_filled crates filled (agrees.identifies crates) saved
    exact ⟨succeeds, database ▸ SameTables.refl _⟩

/-- A domain whose row has been written is saved again with the same tables. -/
theorem saveDomain_again {healthy : Crates Url} {storage : CrawlerStorage Url} {faults : DbFaults}
    {data : DomainDataSaveData} {answer : List String}
    (saved : (storage.saveDomain healthy faults data).1 = .ok answer) :
    (∃ again, (({ storage with db := storage.db.upsertDomain data } :
        CrawlerStorage Url).saveDomain healthy faults data).1 = .ok again) ∧
      SameTables (({ storage with db := storage.db.upsertDomain data } :
        CrawlerStorage Url).saveDomain healthy faults data).2.db
          (storage.saveDomain healthy faults data).2.db := by
  simp only [CrawlerStorage.saveDomain, saveDomain_eq, domainRow_upsertDomain] at saved ⊢
  cases fails : allFail faults.write with
  | true =>
    simp only [fails, if_true] at saved
    cases saved
  | false =>
    simp only [fails, Bool.false_eq_true, if_false] at saved ⊢
    cases built : CachedData.new healthy
        (storage.db.domainRow data (storage.db.domains.find? data.domainString)).domId
        data.robots data.delay storage.agentName with
    | error abort =>
      simp only [built] at saved
      cases saved
    | ok entry => exact ⟨⟨_, rfl⟩, upsertDomain_again storage.db data⟩

/-- Writing a row that is there already leaves the storage. -/
theorem leavesStorage_rewritten {before : CrawlerStorage Url} {data : DomainDataSaveData}
    (agrees : CacheAgrees crates before)
    (present : before.db.domains.find? data.domainString =
      some (before.db.domainRow data (before.db.domains.find? data.domainString))) :
    LeavesStorage crates before { before with db := before.db.upsertDomain data }
      (.parsedDomain data) where
  answers _ := rfl
  pages := rfl
  domains := upsertDomain_domains_eq_self present
  cache := by
    intro domain entry cached
    show ∃ row, (before.db.upsertDomain data).domains.find? domain = some row ∧ _
    rw [upsertDomain_domains_eq_self present]
    exact agrees domain entry cached
  retry _ _ _ saved := saveDomain_again saved

/-- Where a domain save that is not torn fails to build the entry, the row was there before. -/
theorem present_of_uncached {before : CrawlerStorage Url} {faults : DbFaults}
    {data : DomainDataSaveData} {id : Int} {abort : Abort}
    (whole : ¬ TearsSave crates before faults (.parsedDomain data))
    (stored : before.db.saveDomain faults data = .ok (id, before.db.upsertDomain data))
    (unbuilt : CachedData.new crates id data.robots data.delay before.agentName = .error abort) :
    before.db.domains.find? data.domainString =
      some (before.db.domainRow data (before.db.domains.find? data.domainString)) := by
  by_contra changed
  refine whole ⟨?_, ?_, changed⟩
  · by_contra fails
    rw [saveDomain_eq, if_pos (by simpa using fails)] at stored
    cases stored
  · rw [← CachedData.new_ok_iff crates]
    rintro ⟨entry, built⟩
    rw [built] at unbuilt
    cases unbuilt

/-- A failed save that is not torn leaves the storage. -/
theorem Saved.leavesStorage {before after : CrawlerStorage Url} {faults : DbFaults}
    {data : ParsedData} {abort : Abort}
    (saved : Saved crates before faults data (.error abort) after)
    (agrees : CacheAgrees crates before) (whole : ¬ TearsSave crates before faults data) :
    LeavesStorage crates before after data := by
  cases saved with
  | refused _ filled => exact leavesStorage_filled crates agrees filled
  | blankUnwritten _ _ _ filled => exact leavesStorage_filled crates agrees filled
  | domainRefused _ => exact leavesStorage_filled crates agrees (Filled.same crates before)
  | @unwritten page id txt _ _ identified text fresh failed _ =>
    have fails := allFail_of_saveParsedPage
      (identified.stored crates (agrees.identifies crates)) failed
    exact absurd ⟨fails, ⟨id, identified⟩, txt, text, fresh⟩ whole
  | @domainUncached domainData id _ stored unbuilt =>
    exact leavesStorage_rewritten crates agrees (present_of_uncached crates whole stored unbuilt)

/-- A torn save fails and does not leave the storage. -/
theorem Saved.torn {before after : CrawlerStorage Url} {faults : DbFaults} {data : ParsedData}
    {result : Outcome (List String)} (saved : Saved crates before faults data result after)
    (agrees : CacheAgrees crates before) (dist : before.dedup.maxDist = 3)
    (torn : TearsSave crates before faults data) :
    ∃ abort, result = .error abort ∧ ¬ LeavesStorage crates before after data := by
  cases saved with
  | refused unidentified _ =>
    obtain ⟨_, ⟨id, identified⟩, _⟩ := torn
    exact absurd identified (unidentified id)
  | duplicate _ text known _ =>
    obtain ⟨_, _, txt, sameText, fresh⟩ := torn
    obtain rfl := Option.some.inj (text.symm.trans sameText)
    rw [known] at fresh
    cases fresh
  | written identified _ _ stored _ =>
    have succeeds := not_allFail_of_saveParsedPage
      (identified.stored crates (agrees.identifies crates)) stored
    exact absurd (succeeds.symm.trans torn.1) Bool.false_ne_true
  | @unwritten page id txt abort _ identified text fresh failed _ =>
    refine ⟨abort, rfl, fun leaves => ?_⟩
    have indexed := isDuplicate_insert crates before.dedup (le_of_eq dist) txt
    have answer := leaves.answers txt
    rw [fresh] at answer
    exact Bool.false_ne_true (answer.symm.trans indexed)
  | blank _ text _ _ =>
    obtain ⟨_, _, txt, sameText, _⟩ := torn
    cases text.symm.trans sameText
  | blankUnwritten _ text _ _ =>
    obtain ⟨_, _, txt, sameText, _⟩ := torn
    cases text.symm.trans sameText
  | domainRefused failed =>
    rw [saveDomain_eq, if_neg (by simp [torn.1])] at failed
    cases failed
  | @domainUncached domainData id abort _ _ =>
    refine ⟨abort, rfl, fun leaves => torn.2.2 ?_⟩
    have domains : (before.db.upsertDomain domainData).domains = before.db.domains :=
      leaves.domains
    rw [← find?_upsertDomain_self, domains]
  | domainSaved _ built => exact absurd ((CachedData.new_ok_iff crates).mp ⟨_, built⟩) torn.2.1

end Torn

/-! ### Runs without torn saves -/

section Runs

variable {Url : Type} (crates : Crates Url)

/-- The operation is no torn save. -/
def Whole (storage : CrawlerStorage Url) (op : StorageOp Url) : Prop :=
  ∀ data faults, op = .save data faults → ¬ TearsSave crates storage faults data

/-- What the runs without torn saves keep. -/
structure Agreeing (storage : CrawlerStorage Url) : Prop where
  covered : IndexCovers storage
  agrees : CacheAgrees crates storage

theorem storageStep_agreeing {op : StorageOp Url} {before after : CrawlerStorage Url}
    (agreeing : Agreeing crates before) (whole : Whole crates before op)
    (moved : storageStep crates op before = some after) : Agreeing crates after where
  covered := storageStep_indexCovers crates agreeing.covered moved
  agrees := by
    rcases storageStep_cases crates moved with
      ⟨data, faults, rfl, saved⟩ | rfl | ⟨_, _, refreshed, rfl⟩
    · unfold CacheAgrees
      rw [saved.agentName]
      refine saved.cacheFits crates agreeing.agrees (fun _ _ built => built) ?_
      rintro domainData id abort rfl stored unbuilt old entry found built
      have present := present_of_uncached crates (whole _ _ rfl) stored unbuilt
      rw [found] at present
      exact Option.some.inj present ▸ built
    · exact cacheFits_started _ _ _
    · exact agreeing.agrees.refreshed crates (fun _ _ built => built) refreshed

/-- In the states of the runs without torn saves, a save is atomic on error if and only if it is
not torn. -/
theorem atomicOnError_iff {pathExists : Bool} {db : CrawlerDb} {startFaults : DbFaults}
    {userAgent : String} {first storage : CrawlerStorage Url}
    (plainPath : pathExists = false → db = CrawlerDb.empty)
    (built : CrawlerStorage.new pathExists db startFaults userAgent = .ok first)
    (reached : Transition.ReachesWith (storageStep crates) (Whole crates) first storage)
    (faults : DbFaults) (data : ParsedData) :
    AtomicOnError crates storage faults data ↔ ¬ TearsSave crates storage faults data := by
  have start := CrawlerStorage.new_of_plainPath plainPath built
  have agreeing : Agreeing crates storage :=
    reached.invariant (start ▸ ⟨indexCovers_started db userAgent, cacheFits_started _ db userAgent⟩)
      fun _ _ _ kept whole moved => storageStep_agreeing crates kept whole moved
  have saved := saveParsedData_saved crates storage faults data
  constructor
  · intro atomic torn
    obtain ⟨abort, failed, broken⟩ := saved.torn crates agreeing.agrees agreeing.covered.dist torn
    exact broken (atomic abort failed)
  · intro whole abort failed
    rw [failed] at saved
    exact saved.leavesStorage crates agreeing.agrees whole

/-- A page of a domain without a row is refused, and nothing changes. -/
theorem atomicOnError_iff_sample : ∃ storage : CrawlerStorage SampleUrl,
    Transition.run (storageStep sampleCrates) (sampleSaves [sampleDomainEvent]) sampleStorage =
        some storage ∧
      (storage.saveParsedData sampleCrates DbFaults.none
        (.parsedPage (samplePage .other "a"))).1 = .error (.error .urlDoesntContainDomain) ∧
      AtomicOnError sampleCrates storage DbFaults.none (.parsedPage (samplePage .other "a")) := by
  have built : CrawlerStorage.new false CrawlerDb.empty DbFaults.none "EDUCATIONAL_CRAWLER" =
      .ok sampleStorage := rfl
  have whole : Whole sampleCrates sampleStorage (.save sampleDomainEvent DbFaults.none) := by
    rintro _ _ ⟨⟩ torn
    exact torn.2.1 ⟨⟨none, rfl⟩, by decide⟩
  refine ⟨_, rfl, rfl, ?_⟩
  exact (atomicOnError_iff sampleCrates (fun _ => rfl) built (.move .start whole rfl) DbFaults.none
    (.parsedPage (samplePage .other "a"))).mpr fun torn => Bool.false_ne_true torn.1

/-- A page of a known domain whose write fails: the index takes its text for a duplicate from then
on, though no row has it. -/
theorem failed_save_changes_answers : ∃ storage : CrawlerStorage SampleUrl,
    Transition.run (storageStep sampleCrates) (sampleSaves [sampleDomainEvent]) sampleStorage =
        some storage ∧
      ¬ AtomicOnError sampleCrates storage ⟨fun _ => false, fun _ => true⟩
        (.parsedPage (samplePage .home "")) := by
  refine ⟨_, rfl, fun atomic => ?_⟩
  have answer := (atomic (.error .dbError) rfl).answers ""
  revert answer
  decide +kernel

end Runs

end PoliteCrawler
