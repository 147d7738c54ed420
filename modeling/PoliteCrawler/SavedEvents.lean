/-
This file says once what saving an event can do to the storage service.

`Saved` lists the outcomes of `save_parsed_data` with their reasons and the
state each leaves. Everything that later files prove about saves is a case
analysis of it.
-/

import PoliteCrawler.CrawlerStorage

namespace PoliteCrawler

open CrawlerDb ContentDeduplicator

/-! ### What saving an event can do -/

section Saved

variable {Url : Type} (crates : Crates Url)

/-- What saving a page writes to the hash column; the outer `none` stands for no write. -/
def writtenHash (dedup : ContentDeduplicator) (page : ParsedPageSaveData) :
    Option (Option (BitVec 64)) :=
  match page.cleanText with
  | none => some none
  | some txt =>
    if dedup.isDuplicate crates txt then none else some (some (calculateHash crates txt))

/-- The page's URL has a domain, and the lookup of the domain returns the id. -/
def Identified (storage : CrawlerStorage Url) (faults : DbFaults) (page : ParsedPageSaveData)
    (id : Int) : Prop :=
  ∃ url host, crates.url.parse page.url = .ok url ∧ crates.url.domain url = some host ∧
    (storage.getDomainId crates faults host).1 = .ok (some id)

/-- A cache whose entries were cached before or are read off the row of their domain. -/
def Refreshed (before : CrawlerStorage Url) (domainCache : DomainCache) : Prop :=
  ∀ domain entry, domainCache.cache domain = some entry →
    before.domainCache.cache domain = some entry ∨
      ∃ row, before.db.domains.find? domain = some row ∧
        cachedRow crates before.agentName row = .ok entry

/-- A refreshed cache that has lost no entry. -/
structure Filled (before : CrawlerStorage Url) (domainCache : DomainCache) : Prop where
  refreshed : Refreshed crates before domainCache
  kept : ∀ domain entry, before.domainCache.cache domain = some entry →
    domainCache.cache domain = some entry

theorem Filled.same (before : CrawlerStorage Url) : Filled crates before before.domainCache where
  refreshed _ _ := Or.inl
  kept _ _ := id

/-- The outcomes of saving an event, with the state each leaves. -/
inductive Saved (before : CrawlerStorage Url) (faults : DbFaults) :
    ParsedData → Outcome (List String) → CrawlerStorage Url → Prop
  | refused {page : ParsedPageSaveData} {abort : Abort} {domainCache : DomainCache}
      (unidentified : ∀ id, ¬ Identified crates before faults page id)
      (filled : Filled crates before domainCache) :
      Saved before faults (.parsedPage page) (.error abort) { before with domainCache }
  | duplicate {page : ParsedPageSaveData} {id : Int} {txt : String} {domainCache : DomainCache}
      {savedCounter : BitVec 64} (identified : Identified crates before faults page id)
      (text : page.cleanText = some txt) (known : before.dedup.isDuplicate crates txt = true)
      (filled : Filled crates before domainCache) :
      Saved before faults (.parsedPage page) (.ok []) { before with domainCache, savedCounter }
  | written {page : ParsedPageSaveData} {id : Int} {txt : String} {domainCache : DomainCache}
      {savedCounter : BitVec 64} (identified : Identified crates before faults page id)
      (text : page.cleanText = some txt) (fresh : before.dedup.isDuplicate crates txt = false)
      (stored : before.db.saveParsedPage faults id page (some (calculateHash crates txt)) =
        .ok (before.db.upsertPage (pageRow id page (some (calculateHash crates txt)))))
      (filled : Filled crates before domainCache) :
      Saved before faults (.parsedPage page) (.ok [])
        { before with
          domainCache, savedCounter
          dedup := (before.dedup.insert crates txt).2
          db := before.db.upsertPage (pageRow id page (some (calculateHash crates txt))) }
  | unwritten {page : ParsedPageSaveData} {id : Int} {txt : String} {abort : Abort}
      {domainCache : DomainCache} (identified : Identified crates before faults page id)
      (text : page.cleanText = some txt) (fresh : before.dedup.isDuplicate crates txt = false)
      (failed : before.db.saveParsedPage faults id page (some (calculateHash crates txt)) =
        .error abort)
      (filled : Filled crates before domainCache) :
      Saved before faults (.parsedPage page) (.error abort)
        { before with domainCache, dedup := (before.dedup.insert crates txt).2 }
  | blank {page : ParsedPageSaveData} {id : Int} {domainCache : DomainCache}
      {savedCounter : BitVec 64} (identified : Identified crates before faults page id)
      (text : page.cleanText = none)
      (stored : before.db.saveParsedPage faults id page none =
        .ok (before.db.upsertPage (pageRow id page none)))
      (filled : Filled crates before domainCache) :
      Saved before faults (.parsedPage page) (.ok [])
        { before with domainCache, savedCounter, db := before.db.upsertPage (pageRow id page none) }
  | blankUnwritten {page : ParsedPageSaveData} {id : Int} {abort : Abort}
      {domainCache : DomainCache} (identified : Identified crates before faults page id)
      (text : page.cleanText = none)
      (failed : before.db.saveParsedPage faults id page none = .error abort)
      (filled : Filled crates before domainCache) :
      Saved before faults (.parsedPage page) (.error abort) { before with domainCache }
  | domainRefused {data : DomainDataSaveData} {abort : Abort}
      (failed : before.db.saveDomain faults data = .error abort) :
      Saved before faults (.parsedDomain data) (.error abort) before
  | domainUncached {data : DomainDataSaveData} {id : Int} {abort : Abort}
      (stored : before.db.saveDomain faults data = .ok (id, before.db.upsertDomain data))
      (unbuilt : CachedData.new crates id data.robots data.delay before.agentName =
        .error abort) :
      Saved before faults (.parsedDomain data) (.error abort)
        { before with db := before.db.upsertDomain data }
  | domainSaved {data : DomainDataSaveData} {entry : CachedData}
      (stored : before.db.saveDomain faults data =
        .ok ((before.db.domainRow data (before.db.domains.find? data.domainString)).domId,
          before.db.upsertDomain data))
      (built : CachedData.new crates
        (before.db.domainRow data (before.db.domains.find? data.domainString)).domId
        data.robots data.delay before.agentName = .ok entry) :
      Saved before faults (.parsedDomain data)
        (.ok ((before.domainCache.addDomain data.domainString entry).getSitemaps
          data.domainString))
        { before with
          db := before.db.upsertDomain data
          domainCache := before.domainCache.addDomain data.domainString entry }

/-- A lookup changes nothing but the cache, which may gain the entry of the domain's row. -/
theorem cachedOrStored_state (storage : CrawlerStorage Url) (faults : DbFaults) (domain : String) :
    ∃ domainCache, Filled crates storage domainCache ∧
      (storage.cachedOrStored crates faults domain).2 = { storage with domainCache } := by
  unfold CrawlerStorage.cachedOrStored
  split
  · exact ⟨_, Filled.same crates storage, rfl⟩
  · rename_i missing
    split
    · exact ⟨_, Filled.same crates storage, rfl⟩
    · exact ⟨_, Filled.same crates storage, rfl⟩
    · rename_i data read
      refine ⟨_, ⟨fun other entry cached => ?_, fun other entry cached => ?_⟩, rfl⟩
      · rcases DomainCache.cache_of_addDomain cached with ⟨rfl, rfl⟩ | ⟨_, old⟩
        · exact Or.inr (getCacheInfo_some crates read)
        · exact Or.inl old
      · have different : other ≠ domain := by
          rintro rfl
          exact Option.some_ne_none entry (cached.symm.trans missing)
        exact (DomainCache.addDomain_of_ne _ _ different).trans cached

/-- Saving the page of an identified domain. -/
theorem savePageOfDomain_saved {before : CrawlerStorage Url} {faults : DbFaults}
    {page : ParsedPageSaveData} {host : String} {id : Int} {domainCache : DomainCache}
    (identified : Identified crates before faults page id)
    (found : (before.getDomainId crates faults host).1 = .ok (some id))
    (filled : Filled crates before domainCache)
    (state : (before.getDomainId crates faults host).2 = { before with domainCache }) :
    Saved crates before faults (.parsedPage page)
      (before.savePageOfDomain crates faults host page).1
      (before.savePageOfDomain crates faults host page).2 := by
  unfold CrawlerStorage.savePageOfDomain
  simp only [found, state]
  cases text : page.cleanText with
  | none =>
    simp only [CrawlerStorage.saveParsedPage, text, CrawlerStorage.writePage]
    cases saved : before.db.saveParsedPage faults id page none with
    | error abort => exact .blankUnwritten identified text saved filled
    | ok db =>
      obtain rfl := saveParsedPage_ok saved
      exact .blank identified text saved filled
  | some txt =>
    cases known : before.dedup.isDuplicate crates txt with
    | true =>
      simp only [CrawlerStorage.saveParsedPage, text, known, if_true]
      exact .duplicate identified text known filled
    | false =>
      simp only [CrawlerStorage.saveParsedPage, text, known, CrawlerStorage.writePage,
        Bool.false_eq_true, if_false]
      cases saved : before.db.saveParsedPage faults id page (some (calculateHash crates txt)) with
      | error abort =>
        simp only [ContentDeduplicator.insert, saved]
        exact .unwritten identified text known saved filled
      | ok db =>
        obtain rfl := saveParsedPage_ok saved
        simp only [ContentDeduplicator.insert, saved]
        exact .written identified text known saved filled

/-- A page whose domain is not identified is refused. -/
theorem savePageOfDomain_refused {before : CrawlerStorage Url} {faults : DbFaults}
    {page : ParsedPageSaveData} {host : String}
    (unidentified : ∀ id, ¬ Identified crates before faults page id)
    (missing : ∀ id, (before.getDomainId crates faults host).1 ≠ .ok (some id)) :
    Saved crates before faults (.parsedPage page)
      (before.savePageOfDomain crates faults host page).1
      (before.savePageOfDomain crates faults host page).2 := by
  obtain ⟨domainCache, filled, state⟩ := cachedOrStored_state crates before faults host
  have stateId : (before.getDomainId crates faults host).2 = { before with domainCache } := state
  unfold CrawlerStorage.savePageOfDomain
  cases found : (before.getDomainId crates faults host).1 with
  | error abort =>
    simp only [found, stateId]
    exact .refused unidentified filled
  | ok answer =>
    cases answer with
    | none =>
      simp only [found, stateId]
      exact .refused unidentified filled
    | some id => exact absurd found (missing id)

theorem saveParsedData_saved (before : CrawlerStorage Url) (faults : DbFaults)
    (data : ParsedData) :
    Saved crates before faults data (before.saveParsedData crates faults data).1
      (before.saveParsedData crates faults data).2 := by
  cases data with
  | parsedPage page =>
    cases parsed : crates.url.parse page.url with
    | error reason =>
      simp only [CrawlerStorage.saveParsedData, parsed]
      show Saved crates before faults _ _ { before with domainCache := before.domainCache }
      refine .refused (fun id => ?_) (Filled.same crates before)
      rintro ⟨url, host, same, _⟩
      rw [parsed] at same
      cases same
    | ok url =>
      cases hosted : crates.url.domain url with
      | none =>
        simp only [CrawlerStorage.saveParsedData, parsed, hosted]
        show Saved crates before faults _ _ { before with domainCache := before.domainCache }
        refine .refused (fun id => ?_) (Filled.same crates before)
        rintro ⟨other, host, same, otherHost, _⟩
        obtain rfl : url = other := Except.ok.inj (parsed.symm.trans same)
        rw [hosted] at otherHost
        cases otherHost
      | some host =>
        simp only [CrawlerStorage.saveParsedData, parsed, hosted]
        by_cases found : ∃ id, (before.getDomainId crates faults host).1 = .ok (some id)
        · obtain ⟨id, found⟩ := found
          obtain ⟨domainCache, filled, state⟩ := cachedOrStored_state crates before faults host
          exact savePageOfDomain_saved crates ⟨url, host, parsed, hosted, found⟩ found filled
            state
        · refine savePageOfDomain_refused crates (fun id => ?_) fun id same => found ⟨id, same⟩
          rintro ⟨other, otherHost, same, sameHost, identified⟩
          obtain rfl : url = other := Except.ok.inj (parsed.symm.trans same)
          obtain rfl : host = otherHost := Option.some.inj (hosted.symm.trans sameHost)
          exact found ⟨id, identified⟩
  | parsedDomain data =>
    cases saved : before.db.saveDomain faults data with
    | error abort =>
      simp only [CrawlerStorage.saveParsedData, CrawlerStorage.saveDomain, saved]
      exact .domainRefused saved
    | ok written =>
      obtain ⟨id, db⟩ := written
      obtain ⟨rfl, rfl⟩ := saveDomain_ok saved
      cases built : CachedData.new crates
          (before.db.domainRow data (before.db.domains.find? data.domainString)).domId
          data.robots data.delay before.agentName with
      | error abort =>
        simp only [CrawlerStorage.saveParsedData, CrawlerStorage.saveDomain, saved, built]
        exact .domainUncached saved built
      | ok entry =>
        simp only [CrawlerStorage.saveParsedData, CrawlerStorage.saveDomain, saved, built]
        exact .domainSaved saved built

theorem Saved.agentName {before after : CrawlerStorage Url} {faults : DbFaults}
    {data : ParsedData} {result : Outcome (List String)}
    (saved : Saved crates before faults data result after) :
    after.agentName = before.agentName := by
  cases saved <;> rfl

end Saved

end PoliteCrawler
