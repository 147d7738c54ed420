/-
This file proves that handling a message of the stream a second time changes
nothing.

A save that succeeds leaves its event settled: the domain of a page is cached
and its text is known to the index, or its row is the one that would be written;
a domain has the row and the cached entry that would be written. Saving a
settled event changes no store but the counter, whatever database attempts fail,
and answers with the sitemaps of the first time. Those have all been offered, so
none of them is new.
-/

import PoliteCrawler.StreamConsumer

namespace PoliteCrawler

open CrawlerDb ContentDeduplicator

section Settled

variable {Url : Type} (crates : Crates Url)

/-! ### Settled events -/

/-- Saving the event again writes what is there already, and answers with the sitemaps. -/
inductive Settled (storage : CrawlerStorage Url) : ParsedData → List String → Prop
  | known {page : ParsedPageSaveData} {url : Url} {host txt : String} {entry : CachedData}
      (parsed : crates.url.parse page.url = .ok url)
      (hosted : crates.url.domain url = some host)
      (cached : storage.domainCache.cache host = some entry)
      (text : page.cleanText = some txt) (known : storage.dedup.isDuplicate crates txt = true) :
      Settled storage (.parsedPage page) []
  | blank {page : ParsedPageSaveData} {url : Url} {host : String} {entry : CachedData}
      (parsed : crates.url.parse page.url = .ok url)
      (hosted : crates.url.domain url = some host)
      (cached : storage.domainCache.cache host = some entry) (text : page.cleanText = none)
      (stored : storage.db.pages.find? page.url = some (pageRow entry.id page none)) :
      Settled storage (.parsedPage page) []
  | domain {data : DomainDataSaveData} {entry : CachedData}
      (stored : storage.db.domains.find? data.domainString =
        some (storage.db.domainRow data (storage.db.domains.find? data.domainString)))
      (built : CachedData.new crates
        (storage.db.domainRow data (storage.db.domains.find? data.domainString)).domId
        data.robots data.delay storage.agentName = .ok entry)
      (cached : storage.domainCache.cache data.domainString = some entry) :
      Settled storage (.parsedDomain data) (storage.domainCache.getSitemaps data.domainString)

variable {crates} {storage : CrawlerStorage Url}

/-- Neither the seen URLs nor the counters have to do with it. -/
theorem Settled.congr {data : ParsedData} {sitemaps : List String}
    (settled : Settled crates storage data sitemaps) (seenUrls : SeenUrls Url)
    (savedCounter : BitVec 64) {db : CrawlerDb} (same : SameTables db storage.db) :
    Settled crates { storage with seenUrls, savedCounter, db } data sitemaps := by
  cases settled with
  | known parsed hosted cached text known => exact .known parsed hosted cached text known
  | blank parsed hosted cached text stored =>
    exact .blank parsed hosted cached text (same.pages ▸ stored)
  | @domain data entry stored built cached =>
    obtain ⟨row, found⟩ : ∃ row, storage.db.domains.find? data.domainString = some row :=
      ⟨_, stored⟩
    have foundAgain : db.domains.find? data.domainString = some row := same.domains ▸ found
    rw [found] at stored built
    refine .domain ?_ ?_ cached
    · show db.domains.find? data.domainString =
        some (db.domainRow data (db.domains.find? data.domainString))
      rw [foundAgain]
      exact stored
    · show CachedData.new crates
        (db.domainRow data (db.domains.find? data.domainString)).domId
        data.robots data.delay storage.agentName = .ok entry
      rw [foundAgain]
      exact built

/-! ### A save settles its event -/

theorem cachedOrStored_cached {faults : DbFaults} {domain : String} {entry : CachedData}
    (found : (storage.cachedOrStored crates faults domain).1 = .ok (some entry)) :
    (storage.cachedOrStored crates faults domain).2.domainCache.cache domain = some entry := by
  unfold CrawlerStorage.cachedOrStored at found ⊢
  cases cached : storage.domainCache.getCachedDomain domain with
  | some data =>
    rw [cached] at found
    cases found
    exact cached
  | none =>
    rw [cached] at found
    cases read : storage.db.getCacheInfoAboutDomain crates faults domain storage.agentName with
    | error abort =>
      rw [read] at found
      cases found
    | ok answer =>
      rw [read] at found
      cases answer with
      | none => cases found
      | some data =>
        cases found
        exact storage.domainCache.addDomain_self domain entry

/-- An id that is found is cached from then on. -/
theorem getDomainId_cached {faults : DbFaults} {host : String} {id : Int}
    (found : (storage.getDomainId crates faults host).1 = .ok (some id)) :
    ∃ entry, (storage.getDomainId crates faults host).2.domainCache.cache host = some entry ∧
      entry.id = id := by
  obtain ⟨entry, looked, same⟩ := (CrawlerStorage.getDomainId_ok_iff crates).mp found
  exact ⟨entry, cachedOrStored_cached looked, same⟩

/-- A page that is saved leaves its text in the index, or its row in the table. -/
theorem saveParsedPage_settles {faults : DbFaults} {id : Int} {page : ParsedPageSaveData}
    (small : storage.dedup.maxDist ≤ 3)
    (saved : (storage.saveParsedPage crates faults id page).1 = .ok ()) :
    (storage.saveParsedPage crates faults id page).2.domainCache = storage.domainCache ∧
      ((∃ txt, page.cleanText = some txt ∧
          (storage.saveParsedPage crates faults id page).2.dedup.isDuplicate crates txt = true) ∨
        page.cleanText = none ∧
          (storage.saveParsedPage crates faults id page).2.db.pages.find? page.url =
            some (pageRow id page none)) := by
  unfold CrawlerStorage.saveParsedPage CrawlerStorage.writePage at saved ⊢
  cases text : page.cleanText with
  | none =>
    simp only [text] at saved ⊢
    cases written : storage.db.saveParsedPage faults id page none with
    | error abort =>
      rw [written] at saved
      cases saved
    | ok db =>
      obtain rfl := saveParsedPage_ok written
      exact ⟨rfl, Or.inr ⟨trivial, storage.db.pages.find?_upsert_self page.url
        (fun _ => pageRow id page none) fun _ => rfl⟩⟩
  | some txt =>
    simp only [text] at saved ⊢
    cases known : storage.dedup.isDuplicate crates txt with
    | true => exact ⟨rfl, Or.inl ⟨txt, rfl, known⟩⟩
    | false =>
      simp only [known, Bool.false_eq_true, if_false] at saved ⊢
      cases written : storage.db.saveParsedPage faults id page
          (some (storage.dedup.insert crates txt).1) with
      | error abort =>
        rw [written] at saved
        cases saved
      | ok db => exact ⟨rfl, Or.inl ⟨txt, rfl, isDuplicate_insert crates storage.dedup small txt⟩⟩

theorem savePageOfDomain_settles {faults : DbFaults} {page : ParsedPageSaveData} {url : Url}
    {host : String} {sitemaps : List String} (small : storage.dedup.maxDist ≤ 3)
    (parsed : crates.url.parse page.url = .ok url) (hosted : crates.url.domain url = some host)
    (saved : (storage.savePageOfDomain crates faults host page).1 = .ok sitemaps) :
    Settled crates (storage.savePageOfDomain crates faults host page).2 (.parsedPage page)
      sitemaps := by
  have dedup : (storage.getDomainId crates faults host).2.dedup = storage.dedup := by
    obtain ⟨domainCache, _, state⟩ := cachedOrStored_state crates storage faults host
    have same := congrArg CrawlerStorage.dedup state
    exact same
  rw [← dedup] at small
  unfold CrawlerStorage.savePageOfDomain at saved ⊢
  cases found : (storage.getDomainId crates faults host).1 with
  | error abort =>
    simp only [found] at saved
    cases saved
  | ok answer =>
    cases answer with
    | none =>
      simp only [found] at saved
      cases saved
    | some id =>
      obtain ⟨entry, cached, rfl⟩ := getDomainId_cached found
      simp only [found] at saved ⊢
      generalize (storage.getDomainId crates faults host).2 = looked at small cached saved ⊢
      cases written : (looked.saveParsedPage crates faults entry.id page).1 with
      | error abort =>
        rw [written] at saved
        cases saved
      | ok _ =>
        simp only [written] at saved ⊢
        obtain rfl := Except.ok.inj saved
        obtain ⟨cache, ⟨txt, text, known⟩ | ⟨text, stored⟩⟩ := saveParsedPage_settles small written
        · exact .known parsed hosted (by rw [cache]; exact cached) text known
        · exact .blank parsed hosted (by rw [cache]; exact cached) text stored

/-- A save that succeeds settles its event. -/
theorem saveParsedData_settles {faults : DbFaults} {data : ParsedData} {sitemaps : List String}
    (small : storage.dedup.maxDist ≤ 3)
    (saved : (storage.saveParsedData crates faults data).1 = .ok sitemaps) :
    Settled crates (storage.saveParsedData crates faults data).2 data sitemaps := by
  cases data with
  | parsedPage page =>
    simp only [CrawlerStorage.saveParsedData] at saved ⊢
    cases parsed : crates.url.parse page.url with
    | error reason =>
      rw [parsed] at saved
      cases saved
    | ok url =>
      simp only [parsed] at saved ⊢
      cases hosted : crates.url.domain url with
      | none =>
        rw [hosted] at saved
        cases saved
      | some host =>
        simp only [hosted] at saved ⊢
        exact savePageOfDomain_settles small parsed hosted saved
  | parsedDomain data =>
    simp only [CrawlerStorage.saveParsedData, CrawlerStorage.saveDomain] at saved ⊢
    cases stored : storage.db.saveDomain faults data with
    | error abort =>
      rw [stored] at saved
      cases saved
    | ok written =>
      obtain ⟨id, db⟩ := written
      obtain ⟨rfl, rfl⟩ := saveDomain_ok stored
      simp only [stored] at saved ⊢
      cases built : CachedData.new crates
          (storage.db.domainRow data (storage.db.domains.find? data.domainString)).domId
          data.robots data.delay storage.agentName with
      | error abort =>
        rw [built] at saved
        cases saved
      | ok entry =>
        simp only [built] at saved ⊢
        obtain rfl := Except.ok.inj saved
        have again := domainRow_upsertDomain storage.db data
        exact .domain (again ▸ find?_upsertDomain_self storage.db data) (again ▸ built)
          (storage.domainCache.addDomain_self data.domainString entry)

/-! ### A settled event changes nothing -/

theorem cachedOrStored_hit {domain : String} {entry : CachedData}
    (cached : storage.domainCache.cache domain = some entry) (faults : DbFaults) :
    storage.cachedOrStored crates faults domain = (.ok (some entry), storage) := by
  simp only [CrawlerStorage.cachedOrStored, DomainCache.getCachedDomain, cached]

/-- Only the counters have changed. -/
def Counted (before after : CrawlerStorage Url) : Prop :=
  ∃ savedCounter db, SameTables db before.db ∧ after = { before with savedCounter, db }

theorem Counted.refl (storage : CrawlerStorage Url) : Counted storage storage :=
  ⟨storage.savedCounter, storage.db, .refl storage.db, rfl⟩

theorem Counted.trans {first second third : CrawlerStorage Url} (before : Counted first second)
    (after : Counted second third) : Counted first third := by
  obtain ⟨_, _, same, rfl⟩ := before
  obtain ⟨savedCounter, db, sameAgain, rfl⟩ := after
  exact ⟨savedCounter, db, ⟨sameAgain.domains.trans same.domains,
    sameAgain.pages.trans same.pages⟩, rfl⟩

/-- The page branch on a cached domain, when the save of the page changes nothing. -/
theorem savePageOfDomain_same {host : String} {entry : CachedData} {faults : DbFaults}
    {page : ParsedPageSaveData} (cached : storage.domainCache.cache host = some entry)
    (same : (storage.saveParsedPage crates faults entry.id page).2 = storage) :
    ((storage.savePageOfDomain crates faults host page).1 = .ok [] ∨
        ∃ abort, (storage.savePageOfDomain crates faults host page).1 = .error abort) ∧
      Counted storage (storage.savePageOfDomain crates faults host page).2 := by
  simp only [CrawlerStorage.savePageOfDomain, CrawlerStorage.getDomainId,
    cachedOrStored_hit cached, Except.map, Option.map_some]
  cases (storage.saveParsedPage crates faults entry.id page).1 with
  | error abort =>
    simp only [same]
    exact ⟨Or.inr ⟨abort, rfl⟩, .refl storage⟩
  | ok _ =>
    simp only [same]
    exact ⟨Or.inl trivial, _, storage.db, .refl storage.db, rfl⟩

/-- Saving a settled event changes no store. -/
theorem Settled.saveParsedData {data : ParsedData} {sitemaps : List String}
    (settled : Settled crates storage data sitemaps) (faults : DbFaults) :
    ((storage.saveParsedData crates faults data).1 = .ok sitemaps ∨
        ∃ abort, (storage.saveParsedData crates faults data).1 = .error abort) ∧
      Counted storage (storage.saveParsedData crates faults data).2 := by
  cases settled with
  | @known page url host txt entry parsed hosted cached text known =>
    have same : (storage.saveParsedPage crates faults entry.id page).2 = storage := by
      simp only [CrawlerStorage.saveParsedPage, text, known, if_true]
    simp only [CrawlerStorage.saveParsedData, parsed, hosted]
    exact savePageOfDomain_same cached same
  | @blank page url host entry parsed hosted cached text stored =>
    have same : (storage.saveParsedPage crates faults entry.id page).2 = storage := by
      simp only [CrawlerStorage.saveParsedPage, text, CrawlerStorage.writePage]
      cases written : storage.db.saveParsedPage faults entry.id page none with
      | error abort => rfl
      | ok db =>
        obtain rfl := saveParsedPage_ok written
        rw [upsertPage_eq_self stored]
    simp only [CrawlerStorage.saveParsedData, parsed, hosted]
    exact savePageOfDomain_same cached same
  | @domain data entry stored built cached =>
    have tables : SameTables (storage.db.upsertDomain data) storage.db :=
      ⟨upsertDomain_domains_eq_self stored, rfl⟩
    simp only [CrawlerStorage.saveParsedData, CrawlerStorage.saveDomain]
    cases written : storage.db.saveDomain faults data with
    | error abort => exact ⟨Or.inr ⟨abort, rfl⟩, .refl storage⟩
    | ok result =>
      obtain ⟨id, db⟩ := result
      obtain ⟨rfl, rfl⟩ := saveDomain_ok written
      simp only [built, DomainCache.addDomain_eq_self cached]
      exact ⟨Or.inl trivial, storage.savedCounter, _, tables, rfl⟩

/-! ### Messages -/

variable (crates) in
/-- The message has no payload, or its event is settled. -/
def EntrySettled (storage : CrawlerStorage Url) (entry : StreamEntry) (sitemaps : List String) :
    Prop :=
  match entry with
  | none => sitemaps = []
  | some payload => ∃ data, crates.fromJson payload = some data ∧
    Settled crates storage data sitemaps

theorem processStreamEntry_settles {faults : DbFaults} {entry : StreamEntry}
    {sitemaps : List String} (small : storage.dedup.maxDist ≤ 3)
    (processed : (processStreamEntry crates storage faults entry).1 = .ok sitemaps) :
    EntrySettled crates (processStreamEntry crates storage faults entry).2 entry sitemaps := by
  cases entry with
  | none => exact (Except.ok.inj processed).symm
  | some payload =>
    simp only [processStreamEntry] at processed ⊢
    cases decoded : crates.fromJson payload with
    | none =>
      rw [decoded] at processed
      cases processed
    | some data =>
      simp only [decoded] at processed ⊢
      exact ⟨data, decoded, saveParsedData_settles small processed⟩

theorem EntrySettled.congr {entry : StreamEntry} {sitemaps : List String}
    (settled : EntrySettled crates storage entry sitemaps) (seenUrls : SeenUrls Url)
    (savedCounter : BitVec 64) {db : CrawlerDb} (same : SameTables db storage.db) :
    EntrySettled crates { storage with seenUrls, savedCounter, db } entry sitemaps := by
  cases entry with
  | none => exact settled
  | some payload =>
    obtain ⟨data, decoded, settled⟩ := settled
    exact ⟨data, decoded, settled.congr seenUrls savedCounter same⟩

theorem EntrySettled.process {entry : StreamEntry} {sitemaps : List String}
    (settled : EntrySettled crates storage entry sitemaps) (faults : DbFaults) :
    ((processStreamEntry crates storage faults entry).1 = .ok sitemaps ∨
        ∃ abort, (processStreamEntry crates storage faults entry).1 = .error abort) ∧
      Counted storage (processStreamEntry crates storage faults entry).2 := by
  cases entry with
  | none =>
    obtain rfl : sitemaps = [] := settled
    exact ⟨Or.inl rfl, .refl storage⟩
  | some payload =>
    obtain ⟨data, decoded, settled⟩ := settled
    simp only [processStreamEntry, decoded]
    exact settled.saveParsedData faults

variable (crates) in
/-- The sitemap is no URL, or is a seen one. -/
def Offered (storage : CrawlerStorage Url) (sitemap : String) : Prop :=
  ∀ url, crates.url.parse sitemap = .ok url → url ∈ storage.seenUrls.seenUrls

theorem Offered.insertUrl (exact : crates.FilterExact) {sitemap : String}
    (offered : Offered crates storage sitemap) (url : Url) :
    Offered crates (storage.insertUrlInSeenUrls crates url).2 sitemap := fun other parsed =>
  (SeenUrls.mem_insertUrl exact storage.seenUrls).mpr (Or.inr (offered other parsed))

/-! ### Handling a message once -/

/-- The steps that handle a message: it is processed, and its sitemaps are offered and pushed. -/
def handles : ServiceAction Url → Bool
  | .process _ | .offer | .pushSitemap _ => true
  | _ => false

variable (crates) in
/-- Where the consumer stands with the message. Once it is processed it is settled, and its sitemaps
are left or have been offered. -/
inductive Handling (entry : StreamEntry) (id : Nat) (storage : CrawlerStorage Url) : Consumer → Prop
  | taken (small : storage.dedup.maxDist ≤ 3) : Handling entry id storage (.processing [(entry, id)])
  | offering {left sitemaps : List String} (settled : EntrySettled crates storage entry sitemaps)
      (offered : ∀ sitemap ∈ sitemaps, sitemap ∈ left ∨ Offered crates storage sitemap) :
      Handling entry id storage (.offering id left [])
  | pushing {url : String} {attempt : Nat} {left sitemaps : List String}
      (settled : EntrySettled crates storage entry sitemaps)
      (offered : ∀ sitemap ∈ sitemaps, sitemap ∈ left ∨ Offered crates storage sitemap) :
      Handling entry id storage (.pushing id url attempt left [])
  | reading : Handling entry id storage .reading
  | stopped : Handling entry id storage .stopped

variable {entry : StreamEntry} {id : Nat} {service next : StorageService Url}

theorem Handling.process {faults : DbFaults}
    (handling : Handling crates entry id service.storage service.consumer)
    (moved : service.process crates faults = some next) :
    Handling crates entry id next.storage next.consumer := by
  generalize at_start : service.consumer = consumer at handling
  cases process_moved crates moved with
  | processed processing succeeded =>
    rw [at_start] at processing
    subst processing
    cases handling with
    | taken small =>
      exact .offering (processStreamEntry_settles small succeeded) fun _ member => Or.inl member
  | dropped processing failed goesOn =>
    rw [at_start] at processing
    subst processing
    cases handling with
    | taken small => rcases goesOn with rfl | rfl <;> [exact .stopped; exact .reading]

theorem Handling.offer (exact : crates.FilterExact)
    (handling : Handling crates entry id service.storage service.consumer)
    (moved : service.offer crates = some next) :
    Handling crates entry id next.storage next.consumer := by
  obtain ⟨id', sitemap, left, batch, offering, outcome⟩ := offer_eq_some crates moved
  rw [offering] at handling
  cases handling with
  | @offering _ sitemaps settled offered =>
    rcases outcome with ⟨reason, parsed, rfl⟩ | ⟨url, parsed, rfl⟩
    · refine .offering settled fun other member => ?_
      rcases offered other member with here | before
      · rcases List.mem_cons.mp here with rfl | later
        · refine Or.inr fun url same => ?_
          rw [parsed] at same
          cases same
        · exact Or.inl later
      · exact Or.inr before
    · have kept := settled.congr (service.storage.insertUrlInSeenUrls crates url).2.seenUrls
        service.storage.savedCounter (.refl service.storage.db)
      have offeredNow : ∀ other ∈ sitemaps, other ∈ left ∨
          Offered crates (service.storage.insertUrlInSeenUrls crates url).2 other := by
        intro other member
        rcases offered other member with here | before
        · rcases List.mem_cons.mp here with rfl | later
          · refine Or.inr fun again same => ?_
            obtain rfl : url = again := Except.ok.inj (parsed.symm.trans same)
            exact (SeenUrls.mem_insertUrl exact service.storage.seenUrls).mpr (Or.inl rfl)
          · exact Or.inl later
        · exact Or.inr (before.insertUrl exact url)
      dsimp only
      split
      · exact .offering kept offeredNow
      · exact .pushing kept offeredNow

theorem Handling.pushSitemap {call : Call}
    (handling : Handling crates entry id service.storage service.consumer)
    (moved : service.pushSitemap call = some next) :
    Handling crates entry id next.storage next.consumer := by
  generalize at_start : service.consumer = consumer at handling
  cases pushSitemap_moved crates moved with
  | pushed pushing _ goesOn =>
    rw [at_start] at pushing
    subst pushing
    cases handling with
    | pushing settled offered =>
      rcases goesOn with rfl | rfl <;> [exact .offering settled offered; exact .pushing settled offered]
  | pushFailed pushing goesOn =>
    rw [at_start] at pushing
    subst pushing
    cases handling with
    | pushing settled offered =>
      rcases goesOn with rfl | rfl <;> [exact .offering settled offered; exact .pushing settled offered]

theorem Handling.step (exact : crates.FilterExact) {action : ServiceAction Url}
    (handling : Handling crates entry id service.storage service.consumer)
    (moved : serviceStep crates action service = some next) (handled : handles action = true) :
    Handling crates entry id next.storage next.consumer := by
  cases action with
  | process faults => exact handling.process moved
  | offer => exact handling.offer exact moved
  | pushSitemap call => exact handling.pushSitemap moved
  | _ => cases handled

/-! ### Handling it again -/

/-- The stores of the service are the same: the tables, the index, the cache, the seen URLs and the
task queue. -/
structure SameStores (before after : StorageService Url) : Prop where
  pages : after.storage.db.pages = before.storage.db.pages
  domains : after.storage.db.domains = before.storage.db.domains
  dedup : after.storage.dedup = before.storage.dedup
  domainCache : after.storage.domainCache = before.storage.domainCache
  seenUrls : after.storage.seenUrls = before.storage.seenUrls
  queue : after.queue = before.queue

variable (crates) in
/-- Where the consumer stands with a message it handles again: no sitemap that is left is new. -/
inductive Repeating (entry : StreamEntry) (id : Nat) (storage : CrawlerStorage Url) :
    Consumer → Prop
  | taken : Repeating entry id storage (.processing [(entry, id)])
  | offering {left : List String} (offered : ∀ sitemap ∈ left, Offered crates storage sitemap) :
      Repeating entry id storage (.offering id left [])
  | reading : Repeating entry id storage .reading
  | stopped : Repeating entry id storage .stopped

variable (crates) in
/-- The service has only counted since, and the consumer is at the message again. -/
structure Repeated (entry : StreamEntry) (id : Nat) (once service : StorageService Url) : Prop where
  counted : Counted once.storage service.storage
  queue : service.queue = once.queue
  consumer : Repeating crates entry id once.storage service.consumer

theorem Repeated.process {once : StorageService Url} {sitemaps : List String} {faults : DbFaults}
    (repeated : Repeated crates entry id once service)
    (settled : EntrySettled crates once.storage entry sitemaps)
    (offered : ∀ sitemap ∈ sitemaps, Offered crates once.storage sitemap)
    (moved : service.process crates faults = some next) : Repeated crates entry id once next := by
  obtain ⟨before, queue, repeating⟩ := repeated
  have counted := before
  obtain ⟨savedCounter, db, same, storage⟩ := counted
  have again := settled.congr once.storage.seenUrls savedCounter same
  rw [← storage] at again
  obtain ⟨outcome, after⟩ := again.process faults
  have counted : Counted once.storage (processStreamEntry crates service.storage faults entry).2 :=
    before.trans after
  generalize at_start : service.consumer = consumer at repeating
  cases process_moved crates moved with
  | processed processing succeeded =>
    rw [at_start] at processing
    subst processing
    cases repeating with
    | taken =>
      refine ⟨counted, queue, .offering ?_⟩
      rcases outcome with same | ⟨abort, failed⟩
      · obtain rfl := Except.ok.inj (same.symm.trans succeeded)
        exact offered
      · rw [failed] at succeeded
        cases succeeded
  | dropped processing failed goesOn =>
    rw [at_start] at processing
    subst processing
    cases repeating with
    | taken =>
      refine ⟨counted, queue, ?_⟩
      rcases goesOn with rfl | rfl <;> [exact .stopped; exact .reading]

theorem Repeated.offer (exact : crates.FilterExact) {once : StorageService Url}
    (repeated : Repeated crates entry id once service)
    (moved : service.offer crates = some next) : Repeated crates entry id once next := by
  obtain ⟨counted, queue, repeating⟩ := repeated
  obtain ⟨id', sitemap, left, batch, offering, outcome⟩ := offer_eq_some crates moved
  rw [offering] at repeating
  cases repeating with
  | offering offered =>
    have later : ∀ other ∈ left, Offered crates once.storage other := fun other member =>
      offered other (List.mem_cons_of_mem _ member)
    rcases outcome with ⟨reason, _, rfl⟩ | ⟨url, parsed, rfl⟩
    · exact ⟨counted, queue, .offering later⟩
    · have seen : url ∈ service.storage.seenUrls.seenUrls := by
        obtain ⟨_, _, _, storage⟩ := counted
        rw [storage]
        exact offered sitemap List.mem_cons_self url parsed
      have same : service.storage.insertUrlInSeenUrls crates url = (true, service.storage) := by
        rw [CrawlerStorage.insertUrlInSeenUrls,
          service.storage.seenUrls.insertUrl_of_mem exact seen]
      rw [same]
      exact ⟨counted, queue, .offering later⟩

theorem Repeated.step (exact : crates.FilterExact) {once : StorageService Url}
    {sitemaps : List String} {action : ServiceAction Url}
    (repeated : Repeated crates entry id once service)
    (settled : EntrySettled crates once.storage entry sitemaps)
    (offered : ∀ sitemap ∈ sitemaps, Offered crates once.storage sitemap)
    (moved : serviceStep crates action service = some next) (handled : handles action = true) :
    Repeated crates entry id once next := by
  cases action with
  | process faults => exact repeated.process settled offered moved
  | offer => exact repeated.offer exact moved
  | pushSitemap call =>
    have repeating := repeated.consumer
    cases pushSitemap_moved crates moved with
    | pushed pushing _ _ =>
      rw [pushing] at repeating
      cases repeating
    | pushFailed pushing _ =>
      rw [pushing] at repeating
      cases repeating
  | _ => cases handled

theorem handling_of_reaches (exact : crates.FilterExact) {once : StorageService Url}
    (small : service.storage.dedup.maxDist ≤ 3)
    (first : Transition.ReachesWith (serviceStep crates) (fun _ action => handles action = true)
      { service with consumer := .processing [(entry, id)] } once) :
    Handling crates entry id once.storage once.consumer := by
  induction first with
  | start => exact .taken small
  | move _ handled moved inductionHypothesis => exact inductionHypothesis.step exact moved handled

theorem repeated_of_reaches (exact : crates.FilterExact) {once twice : StorageService Url}
    {sitemaps : List String} (settled : EntrySettled crates once.storage entry sitemaps)
    (offered : ∀ sitemap ∈ sitemaps, Offered crates once.storage sitemap)
    (second : Transition.ReachesWith (serviceStep crates) (fun _ action => handles action = true)
      { once with consumer := .processing [(entry, id)] } twice) :
    Repeated crates entry id once twice := by
  induction second with
  | start => exact ⟨.refl once.storage, rfl, .taken⟩
  | move _ handled moved inductionHypothesis =>
    exact inductionHypothesis.step exact settled offered moved handled

/-- A message that has been handled is handled again without any change of the stores, whatever
operations the service has seen before, and whatever the stream and the task queue hold. -/
theorem redelivery_idempotent (exact : crates.FilterExact) {db : CrawlerDb} {userAgent : String}
    {once twice : StorageService Url} {again : Nat}
    (reached : Transition.Reaches (storageStep crates)
      (CrawlerStorage.started db.simhashes db userAgent) service.storage)
    (first : Transition.ReachesWith (serviceStep crates) (fun _ action => handles action = true)
      { service with consumer := .processing [(entry, id)] } once)
    (done : once.consumer = .offering id [] [])
    (second : Transition.ReachesWith (serviceStep crates) (fun _ action => handles action = true)
      { once with consumer := .processing [(entry, again)] } twice) : SameStores once twice := by
  have covered : IndexCovers service.storage :=
    reached.invariant (indexCovers_started db userAgent) fun _ _ _ covered _ moved =>
      storageStep_indexCovers crates covered moved
  have handling := handling_of_reaches exact covered.dist.le first
  rw [done] at handling
  cases handling with
  | @offering _ sitemaps settled offered =>
    have all : ∀ sitemap ∈ sitemaps, Offered crates once.storage sitemap := fun sitemap member =>
      (offered sitemap member).resolve_left List.not_mem_nil
    obtain ⟨⟨_, _, same, storage⟩, queue, _⟩ := repeated_of_reaches exact settled all second
    refine ⟨?_, ?_, by rw [storage], by rw [storage], by rw [storage], queue⟩
    · rw [storage]
      exact same.pages
    · rw [storage]
      exact same.domains

end Settled

/-! ### The sample web -/

/-- The home page of the first site is delivered under the number. -/
def sampleDelivered (service : StorageService SampleUrl) (id : Nat) : StorageService SampleUrl :=
  let entry : StreamEntry := some (sampleCrates.toJson (.parsedPage (samplePage .home "a")))
  { service with consumer := .processing [(entry, id)] }

/-- The page is saved, and delivered again under another number. -/
theorem redelivery_idempotent_sample : ∃ once twice : StorageService SampleUrl,
    Transition.run (serviceStep sampleCrates) [.process DbFaults.none] (sampleDelivered
      (StorageService.initial CrawlerDb.sample "EDUCATIONAL_CRAWLER") 0) = some once ∧
    Transition.run (serviceStep sampleCrates) [.process DbFaults.none] (sampleDelivered once 1) =
      some twice ∧
    once.storage.db.pages.rows.length = 1 ∧ SameStores once twice := by
  obtain ⟨once, first, handled⟩ : ∃ once, Transition.runWith (serviceStep sampleCrates)
      (fun _ action => handles action = true) [.process DbFaults.none] (sampleDelivered
        (StorageService.initial CrawlerDb.sample "EDUCATIONAL_CRAWLER") 0) = some once ∧
      (once.storage.db.pages.rows.length = 1 ∧ once.consumer = .offering 0 [] []) :=
    ⟨_, rfl, by decide +kernel, rfl⟩
  obtain ⟨stored, done⟩ := handled
  obtain ⟨twice, second⟩ : ∃ twice, Transition.runWith (serviceStep sampleCrates)
      (fun _ action => handles action = true) [.process DbFaults.none] (sampleDelivered once 1) =
        some twice := ⟨_, rfl⟩
  exact ⟨once, twice, Transition.run_of_runWith first, Transition.run_of_runWith second, stored,
    redelivery_idempotent filterExact_sample .start (Transition.reachesWith_of_runWith first) done
      (Transition.reachesWith_of_runWith second)⟩

end PoliteCrawler
