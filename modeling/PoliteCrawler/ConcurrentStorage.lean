/-
This file models the storage service with its calls interleaved: the stream
consumer, which saves one event after the other, and any number of gRPC readers
that look up domains meanwhile.

Each access to the cache and each database call is one step. A lookup searches
the cache, reads the table on a miss and then fills the cache with what it has
read; a domain save writes the table and then the cache. Taken without
interruption, the steps are the operations of the sequential model.

An entry of the cache may be older than the row of its domain, but it always
has the id of the row, because a domain keeps its id. So a page is written with
the id of its own domain whichever way the id was found.
-/

import PoliteCrawler.StorageRuns
import Mathlib.Logic.Function.Iterate

namespace PoliteCrawler

open CrawlerDb

/-! ### Calls in progress -/

/-- Where a lookup of a domain stands. -/
inductive LookupStage
  | searching
  | reading
  | filling (entry : CachedData)
  | found (answer : Outcome (Option CachedData))

/-- Where the consumer stands with an event. -/
inductive SaveStage
  | idle
  | savingDomain (data : DomainDataSaveData)
  | cachingDomain (data : DomainDataSaveData) (id : Int)
  | identifying (page : ParsedPageSaveData) (host : String) (stage : LookupStage)
  | savingPage (page : ParsedPageSaveData) (id : Int)

/-- The service, its consumer, and its readers with the domains they look up. -/
structure ConcurrentStorage (Url Reader : Type) where
  storage : CrawlerStorage Url
  consumer : SaveStage
  readers : Reader → Option (String × LookupStage)

inductive ConcurrentAction (Reader : Type)
  /-- The consumer takes an event. -/
  | event (data : ParsedData)
  | save (faults : DbFaults)
  /-- A reader is asked about a domain. -/
  | request (reader : Reader) (domain : String)
  | look (reader : Reader) (faults : DbFaults)
  | evict (idle : String → Bool)
  | restart (faults : DbFaults)

section Steps

variable {Url : Type} (crates : Crates Url)

/-- A step of `get_domain_id`, `check_if_url_allowed` and `get_delay`. -/
def lookupStep (faults : DbFaults) (domain : String) (storage : CrawlerStorage Url) :
    LookupStage → CrawlerStorage Url × LookupStage
  | .searching =>
    match storage.domainCache.getCachedDomain domain with
    | some data => (storage, .found (.ok (some data)))
    | none => (storage, .reading)
  | .reading =>
    match storage.db.getCacheInfoAboutDomain crates faults domain storage.agentName with
    | .error abort => (storage, .found (.error abort))
    | .ok none => (storage, .found (.ok none))
    | .ok (some data) => (storage, .filling data)
  | .filling data =>
    ({ storage with domainCache := storage.domainCache.addDomain domain data },
      .found (.ok (some data)))
  | .found answer => (storage, .found answer)

/-- The start of `save_parsed_data`. -/
def takeEvent : ParsedData → SaveStage
  | .parsedPage page =>
    match crates.url.parse page.url with
    | .error _ => .idle
    | .ok url =>
      match crates.url.domain url with
      | none => .idle
      | some host => .identifying page host .searching
  | .parsedDomain data => .savingDomain data

/-- A step of `save_parsed_data`. Only the consumer uses the index, so `save_parsed_page` is one
step. -/
def saveStep (faults : DbFaults) (storage : CrawlerStorage Url) :
    SaveStage → CrawlerStorage Url × SaveStage
  | .idle => (storage, .idle)
  | .savingDomain data =>
    match storage.db.saveDomain faults data with
    | .error _ => (storage, .idle)
    | .ok (id, db) => ({ storage with db }, .cachingDomain data id)
  | .cachingDomain data id =>
    match CachedData.new crates id data.robots data.delay storage.agentName with
    | .error _ => (storage, .idle)
    | .ok entry =>
      ({ storage with domainCache := storage.domainCache.addDomain data.domainString entry }, .idle)
  | .identifying page host stage =>
    let looked := lookupStep crates faults host storage stage
    (looked.1, match looked.2 with
      | .found (.ok (some data)) => .savingPage page data.id
      | .found _ => .idle
      | stage => .identifying page host stage)
  | .savingPage page id =>
    let saved := storage.saveParsedPage crates faults id page
    match saved.1 with
    | .error _ => (saved.2, .idle)
    | .ok _ => ({ saved.2 with savedCounter := saved.2.savedCounter + 1 }, .idle)

variable {Reader : Type} [DecidableEq Reader]

/-- A restart is on the database file; the calls in progress are gone with the memory. -/
def concurrentStep : ConcurrentAction Reader → ConcurrentStorage Url Reader →
    Option (ConcurrentStorage Url Reader)
  | .event data, state =>
    match state.consumer with
    | .idle => some { state with consumer := takeEvent crates data }
    | _ => none
  | .save faults, state =>
    match state.consumer with
    | .idle => none
    | stage =>
      let moved := saveStep crates faults state.storage stage
      some { state with storage := moved.1, consumer := moved.2 }
  | .request reader domain, state =>
    match state.readers reader with
    | none => some { state with
        readers := Function.update state.readers reader (some (domain, .searching)) }
    | some _ => none
  | .look reader faults, state =>
    (state.readers reader).map fun call =>
      let moved := lookupStep crates faults call.1 state.storage call.2
      { state with
        storage := moved.1
        readers := Function.update state.readers reader
          (match moved.2 with
            | .found _ => none
            | stage => some (call.1, stage)) }
  | .evict idle, state => some { state with
      storage := { state.storage with domainCache := state.storage.domainCache.evict idle } }
  | .restart faults, state =>
    match CrawlerStorage.new true state.storage.db faults state.storage.agentName with
    | .error _ => none
    | .ok restarted => some ⟨restarted, .idle, fun _ => none⟩

/-- The service before any call. -/
def ConcurrentStorage.begin (storage : CrawlerStorage Url) : ConcurrentStorage Url Reader :=
  ⟨storage, .idle, fun _ => none⟩

end Steps

/-! ### Calls without interruption -/

section Alone

variable {Url : Type} (crates : Crates Url)

/-- A lookup that nobody interrupts is the lookup of the sequential model. -/
theorem lookup_alone (storage : CrawlerStorage Url) (faults : DbFaults) (domain : String) :
    (fun call => lookupStep crates faults domain call.1 call.2)^[3] (storage, .searching) =
      ((storage.cachedOrStored crates faults domain).2,
        .found (storage.cachedOrStored crates faults domain).1) := by
  simp only [Function.iterate_succ, Function.iterate_zero, Function.comp_apply, id_eq]
  unfold CrawlerStorage.cachedOrStored
  cases cached : storage.domainCache.getCachedDomain domain with
  | some data => simp only [lookupStep, cached]
  | none =>
    simp only [lookupStep, cached]
    cases read : storage.db.getCacheInfoAboutDomain crates faults domain storage.agentName with
    | error abort => rfl
    | ok data => cases data <;> rfl

/-- An event that the consumer saves without interruption is saved as in the sequential model. -/
theorem save_alone (storage : CrawlerStorage Url) (faults : DbFaults) (data : ParsedData) :
    (fun event => saveStep crates faults event.1 event.2)^[4] (storage, takeEvent crates data) =
      ((storage.saveParsedData crates faults data).2, .idle) := by
  simp only [Function.iterate_succ, Function.iterate_zero, Function.comp_apply, id_eq]
  cases data with
  | parsedPage page =>
    cases parsed : crates.url.parse page.url with
    | error reason => simp only [takeEvent, CrawlerStorage.saveParsedData, parsed, saveStep]
    | ok url =>
      cases hosted : crates.url.domain url with
      | none => simp only [takeEvent, CrawlerStorage.saveParsedData, parsed, hosted, saveStep]
      | some host =>
        simp only [takeEvent, CrawlerStorage.saveParsedData, parsed, hosted,
          CrawlerStorage.savePageOfDomain, CrawlerStorage.getDomainId,
          CrawlerStorage.cachedOrStored]
        cases cached : storage.domainCache.getCachedDomain host with
        | some entry =>
          simp only [saveStep, lookupStep, cached, Except.map, Option.map_some]
          cases saved : (storage.saveParsedPage crates faults entry.id page).1 <;> rfl
        | none =>
          simp only [saveStep, lookupStep, cached]
          cases read : storage.db.getCacheInfoAboutDomain crates faults host storage.agentName with
          | error abort => rfl
          | ok data =>
            cases data with
            | none => rfl
            | some entry =>
              simp only [Except.map, Option.map_some]
              generalize CrawlerStorage.saveParsedPage crates _ faults entry.id page = saved
              obtain ⟨outcome, after⟩ := saved
              cases outcome <;> rfl
  | parsedDomain data =>
    simp only [takeEvent, CrawlerStorage.saveParsedData, CrawlerStorage.saveDomain]
    cases saved : storage.db.saveDomain faults data with
    | error abort => simp only [saveStep, saved]
    | ok written =>
      obtain ⟨id, db⟩ := written
      simp only [saveStep, saved]
      cases CachedData.new crates id data.robots data.delay storage.agentName <;> rfl

end Alone

/-! ### What a step can do -/

section Moved

variable {Url : Type} (crates : Crates Url)

/-- The steps of a lookup of the domain. -/
inductive LookupMoved (storage : CrawlerStorage Url) (domain : String) :
    LookupStage → CrawlerStorage Url → LookupStage → Prop
  | hit {entry : CachedData} (cached : storage.domainCache.cache domain = some entry) :
      LookupMoved storage domain .searching storage (.found (.ok (some entry)))
  | missed : LookupMoved storage domain .searching storage .reading
  | unread {answer : Outcome (Option CachedData)} (nothing : ∀ entry, answer ≠ .ok (some entry)) :
      LookupMoved storage domain .reading storage (.found answer)
  | read {row : DomainRow} {entry : CachedData}
      (found : storage.db.domains.find? domain = some row)
      (built : cachedRow crates storage.agentName row = .ok entry) :
      LookupMoved storage domain .reading storage (.filling entry)
  | filled {entry : CachedData} :
      LookupMoved storage domain (.filling entry)
        { storage with domainCache := storage.domainCache.addDomain domain entry }
        (.found (.ok (some entry)))
  | done {answer : Outcome (Option CachedData)} :
      LookupMoved storage domain (.found answer) storage (.found answer)

/-- The steps of the consumer. -/
inductive SaveMoved (storage : CrawlerStorage Url) :
    SaveStage → CrawlerStorage Url → SaveStage → Prop
  | dropped {stage : SaveStage}
      (unbuilt : ∀ data id entry, stage = .cachingDomain data id →
        CachedData.new crates id data.robots data.delay storage.agentName ≠ .ok entry) :
      SaveMoved storage stage storage .idle
  | upserted {data : DomainDataSaveData} :
      SaveMoved storage (.savingDomain data)
        { storage with db := storage.db.upsertDomain data }
        (.cachingDomain data
          (storage.db.domainRow data (storage.db.domains.find? data.domainString)).domId)
  | cached {data : DomainDataSaveData} {id : Int} {entry : CachedData}
      (built : CachedData.new crates id data.robots data.delay storage.agentName = .ok entry) :
      SaveMoved storage (.cachingDomain data id)
        { storage with domainCache := storage.domainCache.addDomain data.domainString entry } .idle
  | looked {page : ParsedPageSaveData} {host : String} {stage after : LookupStage}
      {next : CrawlerStorage Url} (moved : LookupMoved crates storage host stage next after) :
      SaveMoved storage (.identifying page host stage) next (.identifying page host after)
  | identified {page : ParsedPageSaveData} {host : String} {stage : LookupStage}
      {next : CrawlerStorage Url} {entry : CachedData}
      (moved : LookupMoved crates storage host stage next (.found (.ok (some entry)))) :
      SaveMoved storage (.identifying page host stage) next (.savingPage page entry.id)
  | written {page : ParsedPageSaveData} {id : Int} {hash : Option (BitVec 64)}
      {dedup : ContentDeduplicator} {savedCounter : BitVec 64} :
      SaveMoved storage (.savingPage page id)
        { storage with dedup, savedCounter, db := storage.db.upsertPage (pageRow id page hash) }
        .idle
  | unwritten {page : ParsedPageSaveData} {id : Int} {dedup : ContentDeduplicator}
      {savedCounter : BitVec 64} :
      SaveMoved storage (.savingPage page id) { storage with dedup, savedCounter } .idle

/-- Every step of a lookup is one of those listed. -/
theorem lookupStep_moved (faults : DbFaults) (domain : String) (storage : CrawlerStorage Url)
    (stage : LookupStage) :
    LookupMoved crates storage domain stage (lookupStep crates faults domain storage stage).1
      (lookupStep crates faults domain storage stage).2 := by
  cases stage with
  | searching =>
    cases cached : storage.domainCache.getCachedDomain domain with
    | some entry =>
      simp only [lookupStep, cached]
      exact .hit cached
    | none =>
      simp only [lookupStep, cached]
      exact .missed
  | reading =>
    cases read : storage.db.getCacheInfoAboutDomain crates faults domain storage.agentName with
    | error abort =>
      simp only [lookupStep, read]
      exact .unread nofun
    | ok data =>
      cases data with
      | none =>
        simp only [lookupStep, read]
        exact .unread nofun
      | some entry =>
        simp only [lookupStep, read]
        obtain ⟨row, found, built⟩ := getCacheInfo_some crates read
        exact .read found built
  | filling entry => exact .filled
  | found answer => exact .done

theorem saveParsedPage_cases (storage : CrawlerStorage Url) (faults : DbFaults) (id : Int)
    (page : ParsedPageSaveData) :
    ∃ dedup, (storage.saveParsedPage crates faults id page).2 = { storage with dedup } ∨
      ∃ hash, (storage.saveParsedPage crates faults id page).2 =
        { storage with dedup, db := storage.db.upsertPage (pageRow id page hash) } := by
  unfold CrawlerStorage.saveParsedPage CrawlerStorage.writePage
  cases page.cleanText with
  | none =>
    cases saved : storage.db.saveParsedPage faults id page none with
    | error abort => exact ⟨storage.dedup, Or.inl rfl⟩
    | ok db =>
      obtain rfl := saveParsedPage_ok saved
      exact ⟨storage.dedup, Or.inr ⟨none, rfl⟩⟩
  | some txt =>
    cases known : storage.dedup.isDuplicate crates txt with
    | true => exact ⟨storage.dedup, Or.inl (by simp only [known, if_true])⟩
    | false =>
      refine ⟨(storage.dedup.insert crates txt).2, ?_⟩
      simp only [known, Bool.false_eq_true, if_false]
      cases saved : storage.db.saveParsedPage faults id page
          (some (storage.dedup.insert crates txt).1) with
      | error abort => exact Or.inl rfl
      | ok db =>
        obtain rfl := saveParsedPage_ok saved
        exact Or.inr ⟨_, rfl⟩

/-- Every step of the consumer is one of those listed. -/
theorem saveStep_moved (faults : DbFaults) (storage : CrawlerStorage Url) (stage : SaveStage) :
    SaveMoved crates storage stage (saveStep crates faults storage stage).1
      (saveStep crates faults storage stage).2 := by
  cases stage with
  | idle => exact .dropped (by rintro _ _ _ ⟨⟩)
  | savingDomain data =>
    cases saved : storage.db.saveDomain faults data with
    | error abort =>
      simp only [saveStep, saved]
      exact .dropped (by rintro _ _ _ ⟨⟩)
    | ok written =>
      obtain ⟨id, db⟩ := written
      obtain ⟨rfl, rfl⟩ := saveDomain_ok saved
      simp only [saveStep, saved]
      exact .upserted
  | cachingDomain data id =>
    cases built : CachedData.new crates id data.robots data.delay storage.agentName with
    | error abort =>
      simp only [saveStep, built]
      refine .dropped ?_
      rintro _ _ entry ⟨⟩ other
      cases built.symm.trans other
    | ok entry =>
      simp only [saveStep, built]
      exact .cached built
  | identifying page host stage =>
    have moved := lookupStep_moved crates faults host storage stage
    simp only [saveStep]
    generalize lookupStep crates faults host storage stage = looked at moved ⊢
    obtain ⟨next, after⟩ := looked
    cases after with
    | found answer =>
      have same : (∀ entry, answer ≠ .ok (some entry)) → next = storage := fun nothing => by
        cases moved with
        | filled => exact absurd rfl (nothing _)
        | _ => rfl
      cases answer with
      | error abort =>
        rw [same (by rintro _ ⟨⟩)]
        exact .dropped (by rintro _ _ _ ⟨⟩)
      | ok data =>
        cases data with
        | none =>
          rw [same (by rintro _ ⟨⟩)]
          exact .dropped (by rintro _ _ _ ⟨⟩)
        | some entry => exact .identified moved
    | _ => exact .looked moved
  | savingPage page id =>
    obtain ⟨dedup, unwritten | ⟨hash, written⟩⟩ := saveParsedPage_cases crates storage faults id page
    · simp only [saveStep, unwritten]
      cases (storage.saveParsedPage crates faults id page).1 <;> exact .unwritten
    · simp only [saveStep, written]
      cases (storage.saveParsedPage crates faults id page).1 <;> exact .written

variable {Reader : Type} [DecidableEq Reader]

/-- The steps of the service. -/
inductive ConcurrentMoved (state : ConcurrentStorage Url Reader) :
    ConcurrentAction Reader → ConcurrentStorage Url Reader → Prop
  | taken {data : ParsedData} (idle : state.consumer = .idle) :
      ConcurrentMoved state (.event data) { state with consumer := takeEvent crates data }
  | saved {faults : DbFaults} {storage : CrawlerStorage Url} {consumer : SaveStage}
      (moved : SaveMoved crates state.storage state.consumer storage consumer) :
      ConcurrentMoved state (.save faults) { state with storage, consumer }
  | requested {reader : Reader} {domain : String} :
      ConcurrentMoved state (.request reader domain) { state with
        readers := Function.update state.readers reader (some (domain, .searching)) }
  | looked {reader : Reader} {faults : DbFaults} {domain : String} {stage after : LookupStage}
      {storage : CrawlerStorage Url} {pending : Option (String × LookupStage)}
      (called : state.readers reader = some (domain, stage))
      (moved : LookupMoved crates state.storage domain stage storage after)
      (goesOn : pending = none ∨ pending = some (domain, after)) :
      ConcurrentMoved state (.look reader faults) { state with
        storage, readers := Function.update state.readers reader pending }
  | evicted {idle : String → Bool} :
      ConcurrentMoved state (.evict idle) { state with
        storage := { state.storage with domainCache := state.storage.domainCache.evict idle } }
  | restarted {faults : DbFaults} :
      ConcurrentMoved state (.restart faults) (ConcurrentStorage.begin
        (CrawlerStorage.started state.storage.db.simhashes state.storage.db
          state.storage.agentName))

/-- Every step of the service is one of those listed. -/
theorem concurrentStep_moved {action : ConcurrentAction Reader}
    {state next : ConcurrentStorage Url Reader}
    (moved : concurrentStep crates action state = some next) :
    ConcurrentMoved crates state action next := by
  cases action with
  | event data =>
    simp only [concurrentStep] at moved
    split at moved <;> cases moved
    exact .taken ‹_›
  | save faults =>
    simp only [concurrentStep] at moved
    split at moved <;> cases moved
    exact .saved (saveStep_moved crates faults state.storage state.consumer)
  | request reader domain =>
    simp only [concurrentStep] at moved
    split at moved <;> cases moved
    exact .requested
  | look reader faults =>
    obtain ⟨⟨domain, stage⟩, called, rfl⟩ := Option.map_eq_some_iff.mp moved
    refine .looked called (lookupStep_moved crates faults domain state.storage stage) ?_
    dsimp only
    split
    · exact Or.inl rfl
    · exact Or.inr rfl
  | evict idle =>
    cases moved
    exact .evicted
  | restart faults =>
    simp only [concurrentStep] at moved
    split at moved
    · cases moved
    · rename_i restarted built
      cases moved
      rw [CrawlerStorage.new_ok built]
      exact .restarted

end Moved

/-! ### Ids of domains -/

/-- The domain has a row of the id. -/
def CrawlerDb.HasId (db : CrawlerDb) (domain : String) (id : Int) : Prop :=
  ∃ row, db.domains.find? domain = some row ∧ row.domId = id

/-- Every domain keeps its id. -/
def CrawlerDb.KeepsIds (db next : CrawlerDb) : Prop :=
  ∀ domain id, db.HasId domain id → next.HasId domain id

theorem CrawlerDb.hasId_upsertDomain (db : CrawlerDb) (data : DomainDataSaveData) :
    (db.upsertDomain data).HasId data.domainString
      (db.domainRow data (db.domains.find? data.domainString)).domId :=
  ⟨_, find?_upsertDomain_self db data, rfl⟩

/-- An upsert of a domain that is known writes its id again. -/
theorem CrawlerDb.keepsIds_upsertDomain (db : CrawlerDb) (data : DomainDataSaveData) :
    db.KeepsIds (db.upsertDomain data) := by
  rintro domain id ⟨row, found, same⟩
  by_cases saved : domain = data.domainString
  · subst saved
    refine ⟨_, find?_upsertDomain_self db data, ?_⟩
    rw [found]
    exact same
  · exact ⟨row, (find?_upsertDomain_of_ne db data saved).trans found, same⟩

section Ids

variable {Url : Type} {crates : Crates Url}

/-- The id of the page is that of the domain of its URL. -/
def PointsHome (crates : Crates Url) (db : CrawlerDb) (text : String) (id : Int) : Prop :=
  ∃ url host, crates.url.parse text = .ok url ∧ crates.url.domain url = some host ∧
    db.HasId host id

theorem PointsHome.keepsIds {db next : CrawlerDb} {text : String} {id : Int}
    (home : PointsHome crates db text id) (keeps : db.KeepsIds next) :
    PointsHome crates next text id := by
  obtain ⟨url, host, parsed, hosted, has⟩ := home
  exact ⟨url, host, parsed, hosted, keeps host id has⟩

/-- What a lookup has read has the id of the domain. -/
def LookupStage.Identifies (db : CrawlerDb) (domain : String) : LookupStage → Prop
  | .filling entry | .found (.ok (some entry)) => db.HasId domain entry.id
  | _ => True

/-- What a reader has read has the id of its domain. -/
def CallIdentifies (db : CrawlerDb) : Option (String × LookupStage) → Prop
  | some (domain, stage) => stage.Identifies db domain
  | none => True

/-- The id the consumer carries is that of its domain. -/
def SaveStage.Identifies (crates : Crates Url) (db : CrawlerDb) : SaveStage → Prop
  | .cachingDomain data id => db.HasId data.domainString id
  | .identifying page host stage =>
    (∃ url, crates.url.parse page.url = .ok url ∧ crates.url.domain url = some host) ∧
      stage.Identifies db host
  | .savingPage page id => PointsHome crates db page.url id
  | _ => True

theorem LookupStage.Identifies.keepsIds {db next : CrawlerDb} {domain : String}
    {stage : LookupStage} (identifies : stage.Identifies db domain) (keeps : db.KeepsIds next) :
    stage.Identifies next domain := by
  unfold LookupStage.Identifies at identifies ⊢
  split at identifies <;> first | exact keeps _ _ identifies | trivial

theorem CallIdentifies.keepsIds {db next : CrawlerDb} {call : Option (String × LookupStage)}
    (identifies : CallIdentifies db call) (keeps : db.KeepsIds next) : CallIdentifies next call := by
  cases call with
  | none => trivial
  | some pending => exact LookupStage.Identifies.keepsIds identifies keeps

theorem takeEvent_identifies (db : CrawlerDb) (data : ParsedData) :
    (takeEvent crates data).Identifies crates db := by
  cases data with
  | parsedPage page =>
    cases parsed : crates.url.parse page.url with
    | error reason => simp only [takeEvent, parsed, SaveStage.Identifies]
    | ok url =>
      cases hosted : crates.url.domain url with
      | none => simp only [takeEvent, parsed, hosted, SaveStage.Identifies]
      | some host =>
        simp only [takeEvent, parsed, hosted]
        exact ⟨⟨url, parsed, hosted⟩, trivial⟩
  | parsedDomain data => trivial

/-- A cached entry that identifies its domain goes on doing so. -/
theorem CacheFits.keepsIds {storage next : CrawlerStorage Url} (fit : CacheIdentifies storage)
    (cache : next.domainCache = storage.domainCache) (keeps : storage.db.KeepsIds next.db) :
    CacheIdentifies next := by
  intro domain entry cached
  rw [cache] at cached
  exact keeps domain entry.id (fit domain entry cached)

theorem CacheFits.addDomain {storage : CrawlerStorage Url} (fit : CacheIdentifies storage)
    {domain : String} {entry : CachedData} (has : storage.db.HasId domain entry.id) :
    CacheIdentifies
      { storage with domainCache := storage.domainCache.addDomain domain entry } := by
  intro other found cached
  rcases DomainCache.cache_of_addDomain cached with ⟨rfl, rfl⟩ | ⟨_, old⟩
  · exact has
  · exact fit other found old

theorem LookupMoved.identifies {storage next : CrawlerStorage Url} {domain : String}
    {stage after : LookupStage} (moved : LookupMoved crates storage domain stage next after)
    (fit : CacheIdentifies storage) (identifies : stage.Identifies storage.db domain) :
    next.db = storage.db ∧ CacheIdentifies next ∧ after.Identifies storage.db domain := by
  cases moved with
  | hit cached => exact ⟨rfl, fit, fit domain _ cached⟩
  | missed => exact ⟨rfl, fit, trivial⟩
  | @unread answer nothing =>
    refine ⟨rfl, fit, ?_⟩
    unfold LookupStage.Identifies
    split
    · cases ‹_›
    · rename_i same
      cases same
      exact absurd rfl (nothing _)
    · trivial
  | read found built => exact ⟨rfl, fit, _, found, (cachedRow_id crates built).symm⟩
  | filled => exact ⟨rfl, fit.addDomain identifies, identifies⟩
  | done => exact ⟨rfl, fit, identifies⟩

/-- Every stored page points at its own domain. -/
def PagesHome (crates : Crates Url) (db : CrawlerDb) : Prop :=
  ∀ page ∈ db.pages.rows, PointsHome crates db page.url page.domId

theorem SaveMoved.identifies {storage next : CrawlerStorage Url} {stage after : SaveStage}
    (moved : SaveMoved crates storage stage next after) (fit : CacheIdentifies storage)
    (identifies : stage.Identifies crates storage.db) (home : PagesHome crates storage.db) :
    storage.db.KeepsIds next.db ∧ CacheIdentifies next ∧ after.Identifies crates next.db ∧
      PagesHome crates next.db := by
  cases moved with
  | dropped _ => exact ⟨fun _ _ => id, fit, trivial, home⟩
  | @upserted data =>
    have keeps := storage.db.keepsIds_upsertDomain data
    refine ⟨keeps, fit.keepsIds rfl keeps, storage.db.hasId_upsertDomain data, ?_⟩
    exact fun page member => (home page member).keepsIds keeps
  | cached built =>
    have has : storage.db.HasId _ _ := identifies
    rw [← CachedData.new_id crates built] at has
    exact ⟨fun _ _ => id, fit.addDomain has, trivial, home⟩
  | looked looked =>
    obtain ⟨hosted, looking⟩ := identifies
    obtain ⟨same, refit, found⟩ := looked.identifies fit looking
    rw [same]
    exact ⟨fun _ _ => id, refit, ⟨hosted, found⟩, home⟩
  | @identified _ host _ _ _ looked =>
    obtain ⟨⟨url, parsed, hosted⟩, looking⟩ := identifies
    obtain ⟨same, refit, found⟩ := looked.identifies fit looking
    rw [same]
    exact ⟨fun _ _ => id, refit, ⟨url, host, parsed, hosted, found⟩, home⟩
  | @written page id hash _ _ =>
    refine ⟨fun _ _ has => has, fit, trivial, fun row member => ?_⟩
    rcases (mem_upsertPage storage.db _).mp member with rfl | ⟨old, _⟩
    · exact identifies
    · exact home row old
  | unwritten => exact ⟨fun _ _ => id, fit, trivial, home⟩

variable {Reader : Type} [DecidableEq Reader]

/-- Every id that is cached, carried or stored is that of its domain. -/
structure ConcurrentStorage.Identified (crates : Crates Url)
    (state : ConcurrentStorage Url Reader) : Prop where
  cache : CacheIdentifies state.storage
  consumer : state.consumer.Identifies crates state.storage.db
  readers : ∀ reader, CallIdentifies state.storage.db (state.readers reader)
  pages : PagesHome crates state.storage.db

omit [DecidableEq Reader] in
theorem identified_begin {storage : CrawlerStorage Url} (fit : CacheIdentifies storage)
    (home : PagesHome crates storage.db) :
    (ConcurrentStorage.begin storage : ConcurrentStorage Url Reader).Identified crates :=
  ⟨fit, trivial, fun _ => trivial, home⟩

theorem ConcurrentMoved.identified {action : ConcurrentAction Reader}
    {state next : ConcurrentStorage Url Reader} (moved : ConcurrentMoved crates state action next)
    (identified : state.Identified crates) :
    state.storage.db.KeepsIds next.storage.db ∧ next.Identified crates := by
  obtain ⟨cache, consumer, readers, pages⟩ := identified
  cases moved with
  | @taken data _ =>
    exact ⟨fun _ _ => id, cache, takeEvent_identifies state.storage.db data, readers, pages⟩
  | saved moved =>
    obtain ⟨keeps, refit, carried, home⟩ := moved.identifies cache consumer pages
    exact ⟨keeps, refit, carried, fun reader => (readers reader).keepsIds keeps, home⟩
  | @requested reader domain =>
    have searching : CallIdentifies state.storage.db (some (domain, .searching)) := trivial
    exact ⟨fun _ _ => id, cache, consumer, Transition.forall_update readers searching, pages⟩
  | @looked reader _ domain stage after storage pending called moved goesOn =>
    have looking : CallIdentifies state.storage.db (some (domain, stage)) := called ▸ readers reader
    obtain ⟨same, refit, found⟩ := moved.identifies cache looking
    have carried : CallIdentifies state.storage.db pending := by
      rcases goesOn with rfl | rfl
      · trivial
      · exact found
    refine ⟨?_, refit, ?_, ?_, ?_⟩
    · exact fun _ _ => same.symm ▸ id
    · exact same.symm ▸ consumer
    · exact same.symm ▸ Transition.forall_update readers carried
    · exact same.symm ▸ pages
  | evicted => exact ⟨fun _ _ => id, cache.evict _, consumer, readers, pages⟩
  | restarted => exact ⟨fun _ _ => id, identified_begin (cacheFits_started _ _ _) pages⟩

theorem concurrentStep_keepsIds {state next : ConcurrentStorage Url Reader}
    (identified : state.Identified crates)
    (reached : Transition.Reaches (concurrentStep crates) state next) :
    state.storage.db.KeepsIds next.storage.db ∧ next.Identified crates := by
  induction reached with
  | start => exact ⟨fun _ _ => id, identified⟩
  | move _ _ moved inductionHypothesis =>
    obtain ⟨keeps, kept⟩ := inductionHypothesis
    obtain ⟨keepsOn, keptOn⟩ := (concurrentStep_moved crates moved).identified kept
    exact ⟨fun domain id has => keepsOn domain id (keeps domain id has), keptOn⟩

/-- The page has the id of the only row of the domain of its URL. -/
def PageRow.AtHome (crates : Crates Url) (db : CrawlerDb) (page : PageRow) : Prop :=
  ∃ url host, crates.url.parse page.url = .ok url ∧ crates.url.domain url = some host ∧
    ∃ row ∈ db.domains.rows, row.domainString = host ∧ page.domId = row.domId ∧
      ∀ other ∈ db.domains.rows, other.domainString = host → other = row

theorem PageRow.atHome_of_pointsHome {db : CrawlerDb} {page : PageRow}
    (home : PointsHome crates db page.url page.domId) : page.AtHome crates db := by
  obtain ⟨url, host, parsed, hosted, row, found, same⟩ := home
  obtain ⟨member, key⟩ := db.domains.find?_eq_some_iff.mp found
  exact ⟨url, host, parsed, hosted, row, member, key, same.symm,
    fun other stored keyOther => db.domains.eq_of_key_eq stored member (keyOther.trans key.symm)⟩

/-- Two domains never share an id. -/
theorem CrawlerDb.eq_of_domId_eq (db : CrawlerDb) {first second : DomainRow}
    (memberFirst : first ∈ db.domains.rows) (memberSecond : second ∈ db.domains.rows)
    (same : first.domId = second.domId) : first = second :=
  List.inj_on_of_nodup_map db.domId_unique memberFirst memberSecond same

/-- In every run from an empty database each page has the id of its own domain, a domain keeps its
id in every run from there, and no two domains share one. -/
theorem pages_at_home {agent : String} {state : ConcurrentStorage Url Reader}
    (reached : Transition.Reaches (concurrentStep crates)
      (ConcurrentStorage.begin (CrawlerStorage.started [] CrawlerDb.empty agent)) state) :
    (∀ page ∈ state.storage.db.pages.rows, page.AtHome crates state.storage.db) ∧
      (∀ later, Transition.Reaches (concurrentStep crates) state later →
        ∀ row ∈ state.storage.db.domains.rows, ∃ again ∈ later.storage.db.domains.rows,
          again.domainString = row.domainString ∧ again.domId = row.domId) ∧
      ∀ first ∈ state.storage.db.domains.rows, ∀ second ∈ state.storage.db.domains.rows,
        first.domId = second.domId → first = second := by
  have start : (ConcurrentStorage.begin (CrawlerStorage.started [] CrawlerDb.empty agent) :
      ConcurrentStorage Url Reader).Identified crates :=
    identified_begin (cacheFits_started _ CrawlerDb.empty agent)
      fun _ member => absurd member List.not_mem_nil
  have identified := (concurrentStep_keepsIds start reached).2
  refine ⟨fun page member => PageRow.atHome_of_pointsHome (identified.pages page member), ?_,
    fun _ first _ second same => state.storage.db.eq_of_domId_eq first second same⟩
  intro later onward row member
  have known : state.storage.db.HasId row.domainString row.domId :=
    ⟨row, state.storage.db.domains.find?_eq_some_iff.mpr ⟨member, rfl⟩, rfl⟩
  obtain ⟨again, found, same⟩ := (concurrentStep_keepsIds identified onward).1 _ _ known
  obtain ⟨stored, key⟩ := later.storage.db.domains.find?_eq_some_iff.mp found
  exact ⟨again, stored, key, same⟩

end Ids

/-! ### The sample web -/

/-- The first site becomes known while a reader looks it up, then its home page is saved under the
id that the reader has cached. -/
def sampleInterleaving : List (ConcurrentAction Unit) :=
  [.event sampleDomainEvent, .save DbFaults.none, .request () "a.example",
    .look () DbFaults.none, .look () DbFaults.none, .save DbFaults.none, .evict fun _ => true,
    .event (.parsedPage (samplePage .home "a")), .look () DbFaults.none, .save DbFaults.none,
    .save DbFaults.none]

theorem pages_at_home_sampleInterleaving : ∃ state : ConcurrentStorage SampleUrl Unit,
    Transition.run (concurrentStep sampleCrates) sampleInterleaving
      (ConcurrentStorage.begin sampleStorage) = some state ∧
    state.storage.db.pages.rows.length = 1 ∧
    (∀ page ∈ state.storage.db.pages.rows, page.AtHome sampleCrates state.storage.db) := by
  obtain ⟨state, ran⟩ : ∃ state, Transition.run (concurrentStep sampleCrates) sampleInterleaving
    (ConcurrentStorage.begin sampleStorage) = some state := ⟨_, rfl⟩
  have stored : (Transition.run (concurrentStep sampleCrates) sampleInterleaving
      (ConcurrentStorage.begin sampleStorage)).map
        (fun state => state.storage.db.pages.rows.length) = some 1 := by decide +kernel
  rw [ran] at stored
  exact ⟨state, ran, Option.some.inj stored,
    (pages_at_home (Transition.reaches_of_run ran)).1⟩

end PoliteCrawler
