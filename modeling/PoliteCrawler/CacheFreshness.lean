/-
This file says when the domain cache is up to date while readers and the
consumer run at the same time.

A reader that misses reads the row first and fills the cache later. A save of
the domain in between writes the row and caches the new entry, and the reader
then puts the old one back: nothing compares the two. The entry stays for as
long as the domain is in use. In the runs in which no reader fills the cache
with an old entry, unless the consumer is about to replace it, every entry is
up to date whenever no call is in progress.
-/

import PoliteCrawler.ConcurrentStorage

namespace PoliteCrawler

open CrawlerDb

section Freshness

variable {Url : Type} (crates : Crates Url)

/-! ### Entries that are up to date -/

/-- The entry is what the row of the domain reads back as. -/
def EntryCurrent (storage : CrawlerStorage Url) (domain : String) (entry : CachedData) : Prop :=
  ∃ row, storage.db.domains.find? domain = some row ∧
    cachedRow crates storage.agentName row = .ok entry

/-- The consumer has written the row of the domain and is about to cache it. -/
def SaveStage.AboutToCache (domain : String) : SaveStage → Prop
  | .cachingDomain data _ => data.domainString = domain
  | _ => False

/-- No call is in progress. -/
def ConcurrentStorage.Quiet {Reader : Type} (state : ConcurrentStorage Url Reader) : Prop :=
  state.consumer = .idle ∧ ∀ reader, state.readers reader = none

/-- The step fills the cache with an entry that is up to date, or that the consumer is about to
replace, if it is a reader's step that fills the cache. -/
def FillsFresh {Reader : Type} (state : ConcurrentStorage Url Reader) :
    ConcurrentAction Reader → Prop
  | .look reader _ => ∀ domain entry, state.readers reader = some (domain, .filling entry) →
    EntryCurrent crates state.storage domain entry ∨ state.consumer.AboutToCache domain
  | _ => True

/-- The domain event, if the step takes one, converts. -/
def TakesConvertible {Reader : Type} (state : ConcurrentStorage Url Reader) :
    ConcurrentAction Reader → Prop
  | .event (.parsedDomain data) => Convertible crates state.storage.agentName data
  | _ => True

/-! ### The invariant -/

/-- What the consumer has read or is about to cache is up to date. -/
def SaveStage.Current (storage : CrawlerStorage Url) : SaveStage → Prop
  | .savingDomain data => Convertible crates storage.agentName data
  | .cachingDomain data id => Convertible crates storage.agentName data ∧
    ∀ entry, CachedData.new crates id data.robots data.delay storage.agentName = .ok entry →
      EntryCurrent crates storage data.domainString entry
  | .identifying _ host (.filling entry) => EntryCurrent crates storage host entry
  | _ => True

/-- Every entry is up to date, or the consumer is about to replace it. -/
structure Coherent (storage : CrawlerStorage Url) (consumer : SaveStage) : Prop where
  cache : ∀ domain entry, storage.domainCache.cache domain = some entry →
    EntryCurrent crates storage domain entry ∨ consumer.AboutToCache domain
  consumer : consumer.Current crates storage

def ConcurrentStorage.UpToDate {Reader : Type} (state : ConcurrentStorage Url Reader) : Prop :=
  Coherent crates state.storage state.consumer

variable {crates}

/-- A fill with an entry that is up to date. -/
theorem Coherent.fill {storage : CrawlerStorage Url} {consumer : SaveStage} {domain : String}
    {entry : CachedData} (coherent : Coherent crates storage consumer)
    (fresh : EntryCurrent crates storage domain entry ∨ consumer.AboutToCache domain) :
    Coherent crates { storage with domainCache := storage.domainCache.addDomain domain entry }
      consumer := by
  refine ⟨fun other found cached => ?_, coherent.consumer⟩
  rcases DomainCache.cache_of_addDomain cached with ⟨rfl, rfl⟩ | ⟨_, old⟩
  · exact fresh
  · exact coherent.cache other found old

/-- The consumer goes on, and was not about to cache. -/
theorem Coherent.goOn {storage : CrawlerStorage Url} {consumer next : SaveStage}
    (coherent : Coherent crates storage consumer)
    (settled : ∀ domain, ¬ consumer.AboutToCache domain) (current : next.Current crates storage) :
    Coherent crates storage next :=
  ⟨fun domain entry cached => Or.inl
    ((coherent.cache domain entry cached).resolve_right (settled domain)), current⟩

/-- A step of a lookup, by a reader or by the consumer. -/
theorem LookupMoved.coherent {storage next : CrawlerStorage Url} {consumer : SaveStage}
    {domain : String} {stage after : LookupStage}
    (moved : LookupMoved crates storage domain stage next after)
    (coherent : Coherent crates storage consumer)
    (fresh : ∀ entry, stage = .filling entry →
      EntryCurrent crates storage domain entry ∨ consumer.AboutToCache domain) :
    Coherent crates next consumer ∧
      ∀ entry, after = .filling entry → EntryCurrent crates next domain entry := by
  cases moved with
  | read found built =>
    refine ⟨coherent, ?_⟩
    rintro _ ⟨⟩
    exact ⟨_, found, built⟩
  | filled => exact ⟨coherent.fill (fresh _ rfl), nofun⟩
  | _ => exact ⟨coherent, nofun⟩

theorem SaveMoved.coherent {storage next : CrawlerStorage Url} {stage after : SaveStage}
    (moved : SaveMoved crates storage stage next after)
    (coherent : Coherent crates storage stage) : Coherent crates next after := by
  cases moved with
  | dropped unbuilt =>
    cases stage with
    | cachingDomain data id =>
      obtain ⟨entry, built⟩ := (CachedData.new_ok_iff crates).mpr coherent.consumer.1
      exact absurd built (unbuilt data id entry rfl)
    | _ => exact coherent.goOn (fun _ => id) trivial
  | @upserted data =>
    refine ⟨fun domain entry cached => ?_, coherent.consumer, fun entry built => ?_⟩
    · by_cases same : data.domainString = domain
      · exact Or.inr same
      · obtain ⟨row, found, reads⟩ := (coherent.cache domain entry cached).resolve_right id
        exact Or.inl ⟨row, (find?_upsertDomain_of_ne _ _ (Ne.symm same)).trans found, reads⟩
    · exact ⟨_, find?_upsertDomain_self _ _, cachedRow_domainRow crates _ _ _ _ built⟩
  | @cached data id entry built =>
    have current := coherent.consumer.2 entry built
    refine ⟨fun domain found cached => Or.inl ?_, trivial⟩
    rcases DomainCache.cache_of_addDomain cached with ⟨rfl, rfl⟩ | ⟨different, old⟩
    · exact current
    · exact (coherent.cache domain found old).resolve_right (Ne.symm different)
  | @looked page host stage after _ moved =>
    have fresh : ∀ entry, stage = .filling entry → EntryCurrent crates storage host entry ∨
        (SaveStage.identifying page host stage).AboutToCache host := by
      rintro entry rfl
      exact Or.inl coherent.consumer
    obtain ⟨kept, filling⟩ := moved.coherent coherent fresh
    refine kept.goOn (fun _ => id) ?_
    cases after with
    | filling entry => exact filling entry rfl
    | _ => trivial
  | @identified page host stage _ _ moved =>
    have fresh : ∀ entry, stage = .filling entry → EntryCurrent crates storage host entry ∨
        (SaveStage.identifying page host stage).AboutToCache host := by
      rintro entry rfl
      exact Or.inl coherent.consumer
    exact (moved.coherent coherent fresh).1.goOn (fun _ => id) trivial
  | written | unwritten =>
    exact ⟨fun domain entry cached => Or.inl
      ((coherent.cache domain entry cached).resolve_right id), trivial⟩

/-! ### Runs -/

variable {Reader : Type} [DecidableEq Reader]

theorem takeEvent_current {storage : CrawlerStorage Url} {data : ParsedData}
    (convertible : ∀ domainData, data = .parsedDomain domainData →
      Convertible crates storage.agentName domainData) :
    (takeEvent crates data).Current crates storage := by
  cases data with
  | parsedPage page =>
    unfold takeEvent
    cases parsed : crates.url.parse page.url with
    | error reason => simp only [parsed, SaveStage.Current]
    | ok url => cases hosted : crates.url.domain url <;> simp only [parsed, hosted, SaveStage.Current]
  | parsedDomain data => exact convertible data rfl

theorem ConcurrentMoved.upToDate {action : ConcurrentAction Reader}
    {state next : ConcurrentStorage Url Reader} (moved : ConcurrentMoved crates state action next)
    (upToDate : state.UpToDate crates) (convertible : TakesConvertible crates state action)
    (fresh : FillsFresh crates state action) : next.UpToDate crates := by
  have coherent : Coherent crates state.storage state.consumer := upToDate
  cases moved with
  | @taken data idle =>
    rw [idle] at coherent
    refine coherent.goOn (fun _ => id) (takeEvent_current ?_)
    rintro domainData rfl
    exact convertible
  | saved moved => exact moved.coherent coherent
  | requested => exact coherent
  | @looked reader _ domain stage _ _ _ called moved _ =>
    refine (moved.coherent coherent ?_).1
    rintro entry rfl
    exact fresh domain entry called
  | evicted =>
    exact ⟨fun domain entry cached =>
      coherent.cache domain entry (DomainCache.cache_of_evict cached), coherent.consumer⟩
  | restarted => exact ⟨fun _ _ cached => absurd cached (Option.some_ne_none _).symm, trivial⟩

omit [DecidableEq Reader] in
theorem ConcurrentStorage.upToDate_begin (db : CrawlerDb) (agent : String) :
    (ConcurrentStorage.begin (CrawlerStorage.started db.simhashes db agent) :
      ConcurrentStorage Url Reader).UpToDate crates :=
  ⟨fun _ _ cached => absurd cached (Option.some_ne_none _).symm, trivial⟩

/-- In the runs in which no reader fills the cache with an old entry, every entry of a service at
rest is up to date. -/
theorem cache_fresh_at_rest {db : CrawlerDb} {agent : String}
    {state : ConcurrentStorage Url Reader}
    (reached : Transition.ReachesWith (concurrentStep crates)
      (fun state action => TakesConvertible crates state action ∧ FillsFresh crates state action)
      (ConcurrentStorage.begin (CrawlerStorage.started db.simhashes db agent)) state)
    (quiet : state.Quiet) : CacheAgrees crates state.storage := by
  have upToDate := reached.invariant (ConcurrentStorage.upToDate_begin db agent)
    fun _ _ _ upToDate permitted moved =>
      (concurrentStep_moved crates moved).upToDate upToDate permitted.1 permitted.2
  intro domain entry cached
  have current := upToDate.cache domain entry cached
  rw [quiet.1] at current
  exact current.resolve_right id

end Freshness

/-! ### The sample web -/

/-- A reader that has missed and read the row, and an event with another delay that is saved before
the reader fills the cache. -/
def sampleOldFill : List (ConcurrentAction Unit) :=
  [.request () "a.example", .look () DbFaults.none, .look () DbFaults.none,
    .event (.parsedDomain ⟨"a.example", none, 0x40000000#32⟩), .save DbFaults.none,
    .save DbFaults.none, .look () DbFaults.none]

/-- The service of the sample web on the database that knows the first site. -/
def sampleKnown : ConcurrentStorage SampleUrl Unit :=
  ConcurrentStorage.begin
    (CrawlerStorage.started CrawlerDb.sample.simhashes CrawlerDb.sample "EDUCATIONAL_CRAWLER")

/-- The old entry replaces the new one: the delay in the cache is one second, that of the row two. -/
theorem old_fill_stays : ∃ state,
    Transition.ReachesWith (concurrentStep sampleCrates)
      (fun state action => TakesConvertible sampleCrates state action) sampleKnown state ∧
      state.Quiet ∧ ¬ CacheAgrees sampleCrates state.storage := by
  obtain ⟨state, ran, consumer, reader⟩ : ∃ state,
      Transition.run (concurrentStep sampleCrates) sampleOldFill sampleKnown = some state ∧
        state.consumer = .idle ∧ state.readers () = none := ⟨_, rfl, rfl, rfl⟩
  have delays : (Transition.run (concurrentStep sampleCrates) sampleOldFill sampleKnown).map
      (fun state => ((state.storage.domainCache.cache "a.example").map CachedData.delay,
        (state.storage.db.domains.find? "a.example").map DomainRow.delay)) =
          some (some (10 ^ 9), some (some 0x40000000#32)) := by decide +kernel
  rw [ran, Option.map_some, Option.some.injEq, Prod.mk.injEq] at delays
  obtain ⟨cached, stored⟩ := delays
  refine ⟨state, Transition.reachesWith_of_run ran ?_, ⟨consumer, fun _ => reader⟩, ?_⟩
  · refine ⟨trivial, ?_⟩
    rintro _ ⟨⟩
    refine ⟨trivial, ?_⟩
    rintro _ ⟨⟩
    refine ⟨trivial, ?_⟩
    rintro _ ⟨⟩
    refine ⟨⟨⟨none, rfl⟩, by decide⟩, ?_⟩
    rintro _ ⟨⟩
    refine ⟨trivial, ?_⟩
    rintro _ ⟨⟩
    refine ⟨trivial, ?_⟩
    rintro _ ⟨⟩
    exact ⟨trivial, fun _ _ => trivial⟩
  · intro agrees
    obtain ⟨entry, cached, second⟩ := Option.map_eq_some_iff.mp cached
    obtain ⟨row, found, built⟩ := agrees "a.example" entry cached
    rw [found, Option.map_some, Option.some.injEq] at stored
    rw [cachedRow, stored] at built
    have delay := CachedData.new_delay sampleCrates built
    rw [second] at delay
    exact absurd delay (by decide)

/-- A reader that misses, reads the row and fills the cache before the consumer saves the domain
again. -/
def sampleFreshFill : List (ConcurrentAction Unit) :=
  [.request () "a.example", .look () DbFaults.none, .look () DbFaults.none,
    .look () DbFaults.none, .event (.parsedDomain ⟨"a.example", none, 0x40000000#32⟩),
    .save DbFaults.none, .save DbFaults.none]

theorem cache_fresh_at_rest_sample : ∃ state,
    Transition.run (concurrentStep sampleCrates) sampleFreshFill sampleKnown = some state ∧
      CacheAgrees sampleCrates state.storage := by
  obtain ⟨state, ran, consumer, reader⟩ : ∃ state,
      Transition.run (concurrentStep sampleCrates) sampleFreshFill sampleKnown = some state ∧
        state.consumer = .idle ∧ state.readers () = none := ⟨_, rfl, rfl, rfl⟩
  refine ⟨state, ran,
    cache_fresh_at_rest (Transition.reachesWith_of_run ran ?_) ⟨consumer, fun _ => reader⟩⟩
  refine ⟨⟨trivial, trivial⟩, ?_⟩
  rintro _ ⟨⟩
  refine ⟨⟨trivial, by rintro _ _ ⟨⟩⟩, ?_⟩
  rintro _ ⟨⟩
  refine ⟨⟨trivial, by rintro _ _ ⟨⟩⟩, ?_⟩
  rintro _ ⟨⟩
  refine ⟨⟨trivial, ?_⟩, ?_⟩
  · rintro _ _ ⟨⟩
    exact Or.inl ⟨_, rfl, rfl⟩
  rintro _ ⟨⟩
  refine ⟨⟨⟨⟨none, rfl⟩, by decide⟩, trivial⟩, ?_⟩
  rintro _ ⟨⟩
  refine ⟨⟨trivial, trivial⟩, ?_⟩
  rintro _ ⟨⟩
  exact ⟨⟨trivial, trivial⟩, fun _ _ => trivial⟩

end PoliteCrawler
