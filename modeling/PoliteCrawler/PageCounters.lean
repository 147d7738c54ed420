/-
This file says when the page counters count the stored pages.

The workers count the pages they publish, and the storage service counts the page
events it saves without an error. A page event whose domain is unknown is not
saved, and one whose text is close to a stored one is saved without a write. In a
run in which no page event meets either, and in which no call fails, every page
event is published, counted by a worker, written and counted by the service. So
the counters agree once the stream is drained.
-/

import PoliteCrawler.ConsumerPanics
import PoliteCrawler.CrawlLimit
import PoliteCrawler.PageAcceptance

namespace PoliteCrawler

open CrawlerDb

variable {Url : Type} (crates : Crates Url)

/-! ### Page events -/

def isPage (entry : StreamEntry) : Bool :=
  match eventOf crates entry with
  | some (.parsedPage _) => true
  | _ => false

/-- The number of page events among the entries. -/
def pagesAmong (entries : List StreamEntry) : Nat := entries.countP (isPage crates)

/-- Processing the entry inserts or updates a row of the pages. -/
def writesPage (storage : CrawlerStorage Url) (faults : DbFaults) (entry : StreamEntry) : Bool :=
  match eventOf crates entry with
  | some (.parsedPage page) =>
    (storage.saveParsedData crates faults (.parsedPage page)).1.isOk &&
      (writtenHash crates storage.dedup page).isSome
  | _ => false

/-- The lookup of the page's domain returns an id. -/
def identifiesPage (storage : CrawlerStorage Url) (faults : DbFaults) (page : ParsedPageSaveData) :
    Bool :=
  (hostOfPage crates page).any fun host =>
    match (storage.getDomainId crates faults host).1 with
    | .ok (some _) => true
    | _ => false

/-- A page event has a known domain, and its text, if any, is not close to a stored one. -/
def keepsPage (storage : CrawlerStorage Url) (faults : DbFaults) (entry : StreamEntry) : Bool :=
  match eventOf crates entry with
  | some (.parsedPage page) =>
    identifiesPage crates storage faults page && (writtenHash crates storage.dedup page).isSome
  | _ => true

/-- The entry the consumer comes to. -/
def StorageService.nextEntry (service : StorageService Url) : Option StreamEntry :=
  match service.consumer with
  | .processing ((entry, _) :: _) => some entry
  | _ => none

/-- The pages an action writes. -/
def StorageService.writtenBy (service : StorageService Url) : ServiceAction Url → Nat
  | .process faults =>
    if service.nextEntry.any (writesPage crates service.storage faults) then 1 else 0
  | _ => 0

/-- A page event that the action processes is kept. -/
def StorageService.keepsPages (service : StorageService Url) : ServiceAction Url → Bool
  | .process faults => service.nextEntry.all (keepsPage crates service.storage faults)
  | _ => true

/-! ### Tallied crawls -/

/-- A crawl beside the number of page events that have inserted or updated a row of the pages. -/
structure PageTally (Url : Type) (n : Nat) where
  crawler : Crawler Url n
  written : Nat

variable {n : Nat}

def PageTally.begin (clock : Instant) (started : StorageService Url × Nat) : PageTally Url n where
  crawler := Crawler.begin clock started
  written := 0

def Crawler.writtenBy (crawler : Crawler Url n) : CrawlerAction Url n → Nat
  | .service action => crawler.shared.service.writtenBy crates action
  | _ => 0

def Crawler.keepsPages (crawler : Crawler Url n) : CrawlerAction Url n → Bool
  | .service action => crawler.shared.service.keepsPages crates action
  | _ => true

/-- The counts match: the service has saved nothing since its start, and nothing is to come. The
consumer is up, and so is its group. -/
structure StorageService.Matching (service : StorageService Url) : Prop where
  saved : service.storage.savedCounter = 0
  drained : service.pending = []
  grouped : service.log.group ≠ none
  up : service.consumer ≠ .down
  fit : CacheIdentifies service.storage

/-- No page event is to come, and no worker is about to count one. -/
structure Crawler.Drained (crawler : Crawler Url n) : Prop where
  stream : pagesAmong crates crawler.shared.service.pending = 0
  workers : ∀ id, (crawler.workers id).uncountedPages = 0

section Saves

variable {crates} {storage : CrawlerStorage Url} {faults : DbFaults}

/-! ### Saves -/

theorem cachedOrStored_savedCounter (storage : CrawlerStorage Url) (faults : DbFaults)
    (domain : String) :
    (storage.cachedOrStored crates faults domain).2.savedCounter = storage.savedCounter := by
  obtain ⟨domainCache, _, state⟩ := cachedOrStored_state crates storage faults domain
  rw [state]

variable (crates) in
theorem saveParsedPage_savedCounter (storage : CrawlerStorage Url) (faults : DbFaults) (id : Int)
    (page : ParsedPageSaveData) :
    (storage.saveParsedPage crates faults id page).2.savedCounter = storage.savedCounter := by
  unfold CrawlerStorage.saveParsedPage CrawlerStorage.writePage
  split
  · dsimp only
    split
    · rfl
    · split <;> rfl
  · split <;> rfl

/-- A page that is saved without an error is counted. -/
theorem savePageOfDomain_savedCounter (storage : CrawlerStorage Url) (faults : DbFaults)
    (host : String) (page : ParsedPageSaveData) :
    (storage.savePageOfDomain crates faults host page).2.savedCounter =
      storage.savedCounter + BitVec.ofNat 64
        (storage.savePageOfDomain crates faults host page).1.isOk.toNat := by
  have found : (storage.getDomainId crates faults host).2.savedCounter = storage.savedCounter :=
    cachedOrStored_savedCounter storage faults host
  unfold CrawlerStorage.savePageOfDomain
  dsimp only
  split
  · exact found.trans (BitVec.add_zero _).symm
  · exact found.trans (BitVec.add_zero _).symm
  · rename_i id _
    have saved := saveParsedPage_savedCounter crates
      (storage.getDomainId crates faults host).2 faults id page
    split
    · exact (saved.trans found).trans (BitVec.add_zero _).symm
    · exact congrArg (· + 1) (saved.trans found)

theorem identifiesPage_iff {page : ParsedPageSaveData} :
    identifiesPage crates storage faults page = true ↔
      ∃ id, Identified crates storage faults page id := by
  unfold identifiesPage
  rw [Option.any_eq_true]
  constructor
  · rintro ⟨host, hosted, found⟩
    obtain ⟨url, parsed, domain⟩ := hostOfPage_eq_some hosted
    split at found
    · rename_i id looked
      exact ⟨id, url, host, parsed, domain, looked⟩
    · cases found
  · rintro ⟨id, url, host, parsed, domain, looked⟩
    refine ⟨host, ?_, ?_⟩
    · rw [hostOfPage, parsed]
      exact domain
    · rw [looked]

/-- Saving a page writes its row exactly when it returns and the text is not close to a stored
one. -/
theorem Saved.writes {after : CrawlerStorage Url} {page : ParsedPageSaveData}
    {result : Outcome (List String)}
    (saved : Saved crates storage faults (.parsedPage page) result after) :
    if result.isOk && (writtenHash crates storage.dedup page).isSome
    then ∃ id hash, after.db = storage.db.upsertPage (pageRow id page hash)
    else after.db = storage.db := by
  cases saved with
  | refused | unwritten | blankUnwritten => rfl
  | duplicate _ text known _ =>
    rw [if_neg]
    simp only [writtenHash, text, known, if_true, Option.isSome_none, Bool.and_false,
      Bool.false_eq_true, not_false_eq_true]
  | written _ text fresh _ _ =>
    rw [if_pos]
    · exact ⟨_, _, rfl⟩
    · simp only [writtenHash, text, fresh, Bool.false_eq_true, if_false, Option.isSome_some,
        Bool.and_true]
      rfl
  | blank _ text _ _ =>
    rw [if_pos]
    · exact ⟨_, _, rfl⟩
    · simp only [writtenHash, text, Option.isSome_some, Bool.and_true]
      rfl

/-- Processing an entry inserts or updates a row of the pages exactly when it is one that is
written. -/
theorem process_pages (storage : CrawlerStorage Url) (faults : DbFaults) (entry : StreamEntry) :
    if writesPage crates storage faults entry
    then ∃ id page hash, (processStreamEntry crates storage faults entry).2.db =
      storage.db.upsertPage (pageRow id page hash)
    else (processStreamEntry crates storage faults entry).2.db.pages = storage.db.pages := by
  cases decoded : eventOf crates entry with
  | none =>
    rw [if_neg (by simp only [writesPage, decoded, Bool.false_eq_true, not_false_eq_true])]
    rw [(processStreamEntry_of_eventOf_none decoded storage faults).1]
  | some event =>
    have saved := saveParsedData_saved crates storage faults event
    rw [processStreamEntry_of_eventOf decoded]
    cases event with
    | parsedPage page =>
      have written := saved.writes
      simp only [writesPage, decoded]
      split at written
      · rename_i writes
        obtain ⟨id, hash, stored⟩ := written
        rw [if_pos writes]
        exact ⟨id, page, hash, stored⟩
      · rename_i unwritten
        rw [if_neg unwritten]
        exact congrArg CrawlerDb.pages written
    | parsedDomain data =>
      rw [if_neg (by simp only [writesPage, decoded, Bool.false_eq_true, not_false_eq_true])]
      generalize storage.saveParsedData crates faults (.parsedDomain data) = result at saved ⊢
      generalize result.1 = answer, result.2 = after at saved ⊢
      cases saved <;> rfl

/-- Processing an entry counts it when it is a page event that is saved. -/
theorem process_savedCounter (storage : CrawlerStorage Url) (faults : DbFaults)
    (entry : StreamEntry) :
    (processStreamEntry crates storage faults entry).2.savedCounter =
      storage.savedCounter + BitVec.ofNat 64
        (isPage crates entry && (processStreamEntry crates storage faults entry).1.isOk).toNat := by
  cases decoded : eventOf crates entry with
  | none =>
    have other : isPage crates entry = false := by simp only [isPage, decoded]
    rw [other, (processStreamEntry_of_eventOf_none decoded storage faults).1]
    exact (BitVec.add_zero _).symm
  | some event =>
    rw [processStreamEntry_of_eventOf decoded]
    cases event with
    | parsedDomain data =>
      have other : isPage crates entry = false := by simp only [isPage, decoded]
      rw [other]
      refine Eq.trans ?_ (BitVec.add_zero _).symm
      show (storage.saveDomain crates faults data).2.savedCounter = _
      unfold CrawlerStorage.saveDomain
      split
      · rfl
      · split <;> rfl
    | parsedPage page =>
      have isPage' : isPage crates entry = true := by simp only [isPage, decoded]
      rw [isPage', Bool.true_and]
      unfold CrawlerStorage.saveParsedData
      dsimp only
      split
      · exact (BitVec.add_zero _).symm
      · split
        · exact (BitVec.add_zero _).symm
        · exact savePageOfDomain_savedCounter storage faults _ page

/-- A page event that is kept is written, while not all attempts of a write fail. -/
theorem writesPage_of_keepsPage {entry : StreamEntry} (fit : CacheIdentifies storage)
    (writes : allFail faults.write = false) (page : isPage crates entry = true)
    (keeps : keepsPage crates storage faults entry = true) :
    writesPage crates storage faults entry = true ∧
      ∃ answer, (processStreamEntry crates storage faults entry).1 = .ok answer := by
  unfold isPage at page
  split at page
  · rename_i page' decoded
    simp only [keepsPage, decoded, Bool.and_eq_true] at keeps
    have savable : Savable crates storage faults (.parsedPage page') :=
      ⟨identifiesPage_iff.mp keeps.1, Or.inr writes⟩
    obtain ⟨answer, saves⟩ :=
      (saveParsedData_saved crates storage faults (.parsedPage page')).ok_iff crates fit |>.mpr savable
    refine ⟨?_, answer, by rw [processStreamEntry_of_eventOf decoded, saves]⟩
    simp only [writesPage, decoded, saves, keeps.2, Bool.and_true]
    rfl
  · cases page

/-- Only a page event is written. -/
theorem isPage_of_writesPage {entry : StreamEntry}
    (writes : writesPage crates storage faults entry = true) : isPage crates entry = true := by
  unfold writesPage at writes
  unfold isPage
  split at writes
  · rfl
  · cases writes

end Saves

/-! ### The service -/

/-- The books of the service: the page events published are those written and those to come. -/
structure StorageService.Counts (published written : Nat) (service : StorageService Url) :
    Prop where
  up : service.consumer ≠ .down
  grouped : service.log.group ≠ none
  fit : CacheIdentifies service.storage
  converts : ∀ entry ∈ service.pending, ∀ data,
    eventOf crates entry = some (.parsedDomain data) → data.delay.toDuration ≠ none
  saved : service.storage.savedCounter = BitVec.ofNat 64 written
  published : published = written + pagesAmong crates service.pending

section Service

variable {crates} {service next : StorageService Url} {published written : Nat}

/-- Nothing is added to the entries to come and nothing taken. -/
theorem StorageService.Counts.goesOn (counts : service.Counts crates published written)
    (up : next.consumer ≠ .down) (grouped : next.log.group ≠ none)
    (fit : CacheIdentifies next.storage)
    (saved : next.storage.savedCounter = service.storage.savedCounter)
    (pending : next.pending = service.pending) : next.Counts crates published written where
  up
  grouped
  fit
  converts := by
    rw [pending]
    exact counts.converts
  saved := saved.trans counts.saved
  published := by
    rw [pending]
    exact counts.published

theorem afterLookup_savedCounter (storage : CrawlerStorage Url) (request : Lookup Url) :
    (storage.afterLookup crates request).savedCounter = storage.savedCounter := by
  obtain ⟨_, _, _, state⟩ := afterLookup_state crates storage request
  rw [state]

theorem StorageService.Matching.counts (matching : service.Matching) :
    service.Counts crates 0 0 where
  up := matching.up
  grouped := matching.grouped
  fit := matching.fit
  converts := by
    rw [matching.drained]
    exact nofun
  saved := matching.saved
  published := by
    rw [matching.drained]
    rfl

/-- An event that is added is to come. -/
theorem StorageService.Counts.append (counts : service.Counts crates published written)
    {event : ParsedData} {entry : StreamEntry} (decoded : eventOf crates entry = some event)
    (converts : ∀ data, event = .parsedDomain data → data.delay.toDuration ≠ none) :
    StorageService.Counts crates (published + (isPage crates entry).toNat) written
      { service with log := service.log.append entry } := by
  obtain ⟨reading, group⟩ := Option.ne_none_iff_exists'.mp counts.grouped
  have pending : StorageService.pending { service with log := service.log.append entry } =
      service.pending ++ [entry] := by
    rw [StorageService.pending, GroupedLog.undelivered_append_of_some group, ← List.append_assoc]
    rfl
  refine ⟨counts.up, counts.grouped, counts.fit, ?_, counts.saved, ?_⟩
  · rw [pending]
    intro other member data domain
    rcases List.mem_append.mp member with old | new
    · exact counts.converts other old data domain
    · rw [List.mem_singleton.mp new, decoded] at domain
      exact converts data (Option.some.inj domain)
  · rw [pending, pagesAmong, List.countP_append, counts.published, List.countP_singleton]
    cases isPage crates entry <;> rfl

/-- A processed entry leaves the entries to come, and its page is written. -/
theorem process_cases {faults : DbFaults} (moved : service.process crates faults = some next) :
    ∃ entry id batch, service.consumer = .processing ((entry, id) :: batch) ∧
      next.storage = (processStreamEntry crates service.storage faults entry).2 ∧
      next.log = service.log ∧ next.consumer ≠ .down ∧
      ((processStreamEntry crates service.storage faults entry).1 ≠ .error .panicked →
        next.consumer.batch = batch) := by
  unfold StorageService.process at moved
  split at moved
  · rename_i entry id batch processing
    cases moved
    refine ⟨entry, id, batch, processing, rfl, rfl, ?_, ?_⟩
    · dsimp only
      split
      · exact fun down => by cases down
      · exact Consumer.next_ne_down batch
      · exact fun down => by cases down
    · intro returns
      dsimp only
      split
      · rfl
      · exact Consumer.batch_next batch
      · rename_i panics
        exact absurd panics returns
  · cases moved

/-- An entry whose delay converts, and whose page is kept, does not panic. -/
theorem process_returns {storage : CrawlerStorage Url} {faults : DbFaults} {entry : StreamEntry}
    (fit : CacheIdentifies storage) (writes : allFail faults.write = false)
    (keeps : keepsPage crates storage faults entry = true)
    (converts : ∀ data, eventOf crates entry = some (.parsedDomain data) →
      data.delay.toDuration ≠ none) :
    (processStreamEntry crates storage faults entry).1 ≠ .error .panicked := by
  cases decoded : eventOf crates entry with
  | none => exact (processStreamEntry_of_eventOf_none decoded storage faults).2
  | some event =>
    cases event with
    | parsedDomain data =>
      rw [processStreamEntry_of_eventOf decoded]
      exact fun panics => saveDomain_panics_iff.mp panics (Or.inr (Or.inr (converts data decoded)))
    | parsedPage page =>
      have isPage' : isPage crates entry = true := by simp only [isPage, decoded]
      obtain ⟨_, answer, saves⟩ := writesPage_of_keepsPage fit writes isPage' keeps
      rw [saves]
      exact fun panics => by cases panics

theorem StorageService.Counts.process (counts : service.Counts crates published written)
    {faults : DbFaults} (moved : service.process crates faults = some next)
    (writes : allFail faults.write = false)
    (keeps : service.keepsPages crates (.process faults) = true) :
    next.Counts crates published (written + service.writtenBy crates (.process faults)) := by
  obtain ⟨entry, id, batch, processing, storage, log, up, left⟩ := process_cases moved
  have comes : service.nextEntry = some entry := by rw [StorageService.nextEntry, processing]
  have pending := StorageService.pending_of_processing processing
  have kept : keepsPage crates service.storage faults entry = true := by
    rw [StorageService.keepsPages, comes] at keeps
    exact keeps
  have converts := counts.converts
  rw [pending] at converts
  have rest : next.pending = batch.map Prod.fst ++ service.log.undelivered := by
    rw [StorageService.pending, log,
      left (process_returns counts.fit writes kept (converts entry List.mem_cons_self))]
  have wrote : service.writtenBy crates (.process faults) = (isPage crates entry).toNat ∧
      (isPage crates entry && (processStreamEntry crates service.storage faults entry).1.isOk) =
        isPage crates entry := by
    rw [StorageService.writtenBy, comes, Option.any_some]
    cases page : isPage crates entry with
    | true =>
      obtain ⟨written, answer, saves⟩ := writesPage_of_keepsPage counts.fit writes page kept
      rw [written, saves]
      exact ⟨rfl, rfl⟩
    | false =>
      have unwritten : writesPage crates service.storage faults entry ≠ true := fun written => by
        cases page.symm.trans (isPage_of_writesPage written)
      rw [if_neg unwritten]
      exact ⟨rfl, rfl⟩
  refine ⟨up, ?_, (process_moved crates moved).cacheIdentifies crates counts.fit, ?_, ?_, ?_⟩
  · rw [log]
    exact counts.grouped
  · rw [rest]
    exact fun other member => converts other (List.mem_cons_of_mem _ member)
  · rw [storage, process_savedCounter, wrote.2, wrote.1, counts.saved, BitVec.ofNat_add]
  · rw [rest, wrote.1, counts.published, pending, pagesAmong, pagesAmong, List.countP_cons]
    cases isPage crates entry <;> simp only [Bool.toNat_true, Bool.toNat_false, if_true, if_false,
      Bool.false_eq_true] <;> omega

/-- A step of the service in which no call fails, and no page event is dropped, keeps the books. -/
theorem StorageService.Counts.step (counts : service.Counts crates published written)
    {action : ServiceAction Url} (stepped : serviceStep crates action service = some next)
    (succeeds : action.succeeds = true) (keeps : service.keepsPages crates action = true) :
    next.Counts crates published (written + service.writtenBy crates action) := by
  have moved := serviceStep_moved crates stepped
  have fit := moved.cacheIdentifies crates counts.fit
  have fixed := moved.pending_eq
  cases moved with
  | published entry => cases succeeds
  | started _ down => exact absurd down counts.up
  | @groupCreated call consumer starting performed idle =>
    have reading : consumer ≠ .down := by
      obtain rfl : call = .answered := of_decide_eq_true succeeds
      have created : service.createGroup .answered = some
          { service with log := service.log.createGroup, consumer } := stepped
      simp only [StorageService.createGroup, starting] at created
      cases created
      exact fun down => by cases down
    exact counts.goesOn reading (Option.some_ne_none _) fit rfl (fixed rfl)
  | groupFailed starting => cases succeeds
  | readAnswered reading =>
    refine counts.goesOn (Consumer.next_ne_down _) ?_ fit rfl (fixed rfl)
    exact fun none => counts.grouped (Option.map_eq_none_iff.mp none)
  | readLost => cases succeeds
  | readFailed => cases succeeds
  | processed | dropped =>
    have writes := Bool.not_eq_true' _ |>.mp (Bool.and_eq_true_iff.mp succeeds).2
    exact counts.process stepped writes keeps
  | offered offering noted goesOn =>
    refine counts.goesOn ?_ counts.grouped fit ?_ (fixed rfl)
    · rcases goesOn with rfl | ⟨_, rfl⟩ <;> exact fun down => by cases down
    · rcases noted with rfl | ⟨url, rfl⟩
      · rfl
      · exact afterLookup_savedCounter _ _
  | pushed pushing performed goesOn =>
    refine counts.goesOn ?_ counts.grouped fit rfl (fixed rfl)
    rcases goesOn with rfl | rfl <;> exact fun down => by cases down
  | pushFailed => cases succeeds
  | acked acking performed =>
    refine counts.goesOn (Consumer.next_ne_down _) ?_ fit rfl (fixed rfl)
    exact fun none => counts.grouped (Option.map_eq_none_iff.mp none)
  | ackFailed => cases succeeds
  | shutDown reading =>
    exact counts.goesOn (fun down => by cases down) counts.grouped fit rfl (fixed rfl)
  | killed => cases succeeds
  | looked request =>
    exact counts.goesOn counts.up counts.grouped fit (afterLookup_savedCounter _ request) rfl

end Service

/-! ### The workers -/

section Workers

variable [DecidableEq Url]

/-- What a worker publishes, and what it will, is read off a download. -/
def Worker.Carries : Worker Url → Prop
  | .working _ _ (.updatingDelay data) =>
    ∃ web url, getDomainData crates web url defaultAgentName = .ok data
  | .working _ _ (.savingDomain data) =>
    (∃ web url, getDomainData crates web url defaultAgentName = .ok data) ∧
      data.delay.toDuration ≠ none
  | .working _ _ (.savingPage page _) =>
    ∃ keywordsFile data, page = (ParsedPage.parse crates keywordsFile data).2
  | _ => True

variable {crates} {shared next : Shared Url} {mover after : Worker Url} {input : Input Url}

theorem WorkerMoved.carries (moved : WorkerMoved crates shared mover input next after)
    (carries : mover.Carries crates) : after.Carries crates := by
  cases moved with
  | looped goesOn => rcases goesOn with rfl | rfl <;> trivial
  | released owed => rcases owed with ⟨_, rfl⟩ | ⟨_, rfl⟩ | ⟨_, _, rfl | rfl⟩ <;> trivial
  | task moved =>
    cases moved with
    | robotsFetched got => exact ⟨_, _, got⟩
    | delayUpdated converts => exact ⟨carries, fun none => by cases none.symm.trans converts⟩
    | domainSaved goesOn => rcases goesOn with rfl | ⟨_, rfl⟩ <;> trivial
    | sitemapDelayAsked _ goesOn => rcases goesOn with rfl | ⟨_, rfl⟩ <;> trivial
    | delayAsked _ goesOn => rcases goesOn with rfl | ⟨_, rfl⟩ <;> trivial
    | pageFetched _ goesOn =>
      rcases goesOn with rfl | rfl
      · exact ⟨_, _, rfl⟩
      · trivial
    | pageSaved _ goesOn => rcases goesOn with rfl | ⟨_, rfl⟩ <;> trivial
    | pushFailed _ goesOn => rcases goesOn with ⟨_, rfl⟩ | rfl <;> trivial
    | _ => trivial
  | _ => trivial

omit [DecidableEq Url] in
/-- A step beside the stream keeps the books. -/
theorem StorageService.Counts.aside {published written : Nat}
    (counts : shared.service.Counts crates published written) (aside : Aside crates shared next) :
    next.service.Counts crates published written := by
  refine counts.goesOn ?_ ?_ ?_ ?_ (StorageService.pending_congr ?_ ?_)
  · rw [aside.consumer]
    exact counts.up
  · rw [aside.log]
    exact counts.grouped
  · rcases aside.storage with same | ⟨request, looked⟩
    · rw [same]
      exact counts.fit
    · rw [looked]
      exact storageStep_cacheIdentifies crates counts.fit
        (show storageStep crates (.lookup request) shared.service.storage = some _ from rfl)
  · rcases aside.storage with same | ⟨request, looked⟩
    · rw [same]
    · rw [looked, afterLookup_savedCounter]
  · rw [aside.consumer]
  · rw [aside.log]

/-- A step of a worker whose calls succeed publishes what is to come. -/
theorem StorageService.Counts.published_of_moved {written : Nat}
    (counts : shared.service.Counts crates shared.journal.published.length written)
    (readBack : EventsReadBack crates) (carries : mover.Carries crates)
    (moved : WorkerMoved crates shared mover input next after) :
    next.service.Counts crates next.journal.published.length written := by
  rcases moved.stream_cases with aside | ⟨url, ticket, data, call, rfl, rfl⟩ |
    ⟨url, ticket, page, decided, call, rfl, rfl, performed, rfl⟩
  · rw [aside.published]
    exact counts.aside aside
  · obtain ⟨⟨web, asked, got⟩, converts⟩ := carries
    obtain ⟨delay, convertible, reads⟩ := readBack.domain web asked data got converts
    show StorageService.Counts crates shared.journal.published.length written
      (publishEvent crates shared.service _ call)
    unfold publishEvent
    split
    · exact counts
    · have decoded : eventOf crates (some (crates.toJson
          (.parsedDomain (DomainDataSaveData.fromDomainData data)))) = _ := reads
      have appended := counts.append decoded fun data same => by
        cases same
        exact convertible
      simp only [isPage, decoded] at appended
      exact appended
  · obtain ⟨keywordsFile, data, rfl⟩ := carries
    have reads := readBack.page keywordsFile data
    have decoded : eventOf crates (some (crates.toJson (.parsedPage (convertParsedPageToSaveData
        crates (ParsedPage.parse crates keywordsFile data).2)))) = _ := reads
    have appended := counts.append decoded fun data same => by cases same
    simp only [isPage, decoded] at appended
    show StorageService.Counts crates _ written (publishEvent crates shared.service _ call)
    rw [publishEvent, if_neg performed]
    exact appended

end Workers

/-! ### Runs -/

section Runs

variable [DecidableEq Url]

def tallyStep (limit : Option (BitVec 64)) (action : CrawlerAction Url n)
    (tally : PageTally Url n) : Option (PageTally Url n) :=
  (crawlerStep crates limit action tally.crawler).map fun crawler => {
    crawler
    written := tally.written + tally.crawler.writtenBy crates action }

/-- No call of the step fails, and it drops no page event. -/
def PageTally.storesAll (tally : PageTally Url n) (action : CrawlerAction Url n) : Bool :=
  noneFails (.crawl action) && tally.crawler.keepsPages crates action

/-- The books of the crawl: the page events published are written or to come, and counted by the
workers or about to be. -/
structure PageTally.Booked (tally : PageTally Url n) : Prop where
  counts : tally.crawler.shared.service.Counts crates
    tally.crawler.shared.journal.published.length tally.written
  carries : ∀ id, (tally.crawler.workers id).Carries crates
  counted : tally.crawler.shared.pagesCrawled +
      BitVec.ofNat 64 (∑ id, (tally.crawler.workers id).uncountedPages) =
    BitVec.ofNat 64 tally.crawler.shared.journal.published.length

variable {crates} {limit : Option (BitVec 64)} {tally next : PageTally Url n}

theorem PageTally.Booked.step (booked : tally.Booked crates) (readBack : EventsReadBack crates)
    {action : CrawlerAction Url n} (stepped : tallyStep crates limit action tally = some next)
    (stores : tally.storesAll crates action = true) : next.Booked crates := by
  obtain ⟨crawler, took, rfl⟩ := Option.map_eq_some_iff.mp stepped
  obtain ⟨succeeds, keeps⟩ := Bool.and_eq_true_iff.mp stores
  obtain ⟨counts, carries, counted⟩ := booked
  cases action with
  | worker id input =>
    obtain ⟨⟨shared, worker⟩, worked, rfl⟩ := Option.map_eq_some_iff.mp took
    have moved := workerStep_moved worked
    refine ⟨counts.published_of_moved readBack (carries id) moved,
      Transition.forall_update carries (moved.carries (carries id)), ?_⟩
    have answered : (tally.crawler.workers id).unansweredPages input = 0 := by
      unfold Worker.unansweredPages
      split
      · cases succeeds
      · rfl
    have published := workerStep_published worked
    have crawled := workerStep_pagesCrawled worked
    have moves := congrArg (BitVec.ofNat 64) (Transition.sum_update_add tally.crawler.workers id
      worker Worker.uncountedPages)
    rw [BitVec.ofNat_add, BitVec.ofNat_add] at moves
    dsimp only at moves ⊢
    rw [published, crawled, answered, Nat.add_zero, BitVec.ofNat_add, ← counted,
      BitVec.add_assoc, BitVec.add_comm (BitVec.ofNat 64 _), moves, BitVec.add_assoc]
  | service action =>
    obtain ⟨service, served, rfl⟩ := Option.map_eq_some_iff.mp took
    exact ⟨counts.step served succeeds keeps, carries, counted⟩
  | _ =>
    cases crawlerStep_moved crates took
    exact ⟨counts, carries, counted⟩

/-- In a run in which no call fails and no page event is dropped, both counters are the number of
page events that inserted or updated a row of the pages, whenever the stream is drained. -/
theorem page_counters_match {clock : Instant} {started : StorageService Url × Nat}
    (readBack : EventsReadBack crates) (matching : started.1.Matching)
    (reached : Transition.ReachesWith (tallyStep crates limit)
      (fun tally action => tally.storesAll crates action = true)
      (PageTally.begin clock started) tally)
    (drained : tally.crawler.Drained crates) :
    tally.crawler.shared.service.storage.savedCounter = BitVec.ofNat 64 tally.written ∧
      tally.crawler.shared.pagesCrawled = BitVec.ofNat 64 tally.written := by
  have start : (PageTally.begin clock started : PageTally Url n).Booked crates :=
    ⟨matching.counts.goesOn matching.up matching.grouped matching.fit rfl rfl, fun _ => trivial, by
      have none : ∑ _ : Fin n, (Worker.atLoop : Worker Url).uncountedPages = 0 :=
        Finset.sum_const_zero
      exact congrArg (0 + BitVec.ofNat 64 ·) none⟩
  have booked : tally.Booked crates := reached.invariant start
    fun _ _ _ booked stores stepped => booked.step readBack stepped stores
  refine ⟨booked.counts.saved, ?_⟩
  have counted := booked.counted
  rw [booked.counts.published, drained.stream, Nat.add_zero,
    Finset.sum_eq_zero fun id _ => drained.workers id] at counted
  exact (BitVec.add_zero _).symm.trans counted

end Runs

/-! ### The sample web -/

/-- Both services are up, on a database that knows both sites, and the home pages of the sites are
the seeds. -/
def sampleHomes : StorageService SampleUrl × Nat :=
  (insertAllUrls sampleStreamCrates {
    StorageService.initial CrawlerDb.sampleBoth defaultAgentName with
    log := GroupedLog.empty.createGroup
    queue := ⟨["https://a.example/", "https://b.example/"], []⟩
    consumer := .reading } [.home, .other], 2)

theorem matching_sampleHomes : sampleHomes.1.Matching where
  saved := rfl
  drained := rfl
  grouped := Option.some_ne_none _
  up down := by cases down
  fit _ _ cached := absurd cached (Option.some_ne_none _).symm

/-- The consumer reads the stream and processes the entries. -/
def sampleConsumed (entries : Nat) : List (CrawlerAction SampleUrl 1) :=
  .service (.read .answered) :: (List.replicate entries
    [.service (.process DbFaults.none), .service (.ack .answered)]).flatten

/-- One home page is published, counted, written and counted again. -/
theorem page_counters_match_sample : ∃ tally : PageTally SampleUrl 1,
    Transition.run (tallyStep sampleStreamCrates none)
      ((sampleTake ++ samplePageTask).map (.worker 0) ++ sampleConsumed 1)
      (PageTally.begin 0 sampleHomes) = some tally ∧
    tally.crawler.Drained sampleStreamCrates ∧
    tally.crawler.shared.service.storage.savedCounter = BitVec.ofNat 64 tally.written ∧
      tally.crawler.shared.pagesCrawled = BitVec.ofNat 64 tally.written := by
  have state : (Transition.runWith (tallyStep sampleStreamCrates none)
      (fun tally action => tally.storesAll sampleStreamCrates action = true)
      ((sampleTake ++ samplePageTask).map (.worker 0) ++ sampleConsumed 1)
      (PageTally.begin 0 sampleHomes : PageTally SampleUrl 1)).map (fun tally =>
        (pagesAmong sampleStreamCrates tally.crawler.shared.service.pending,
          (tally.crawler.workers 0).uncountedPages)) = some (0, 0) := by decide +kernel
  obtain ⟨tally, ran, counts⟩ := Option.map_eq_some_iff.mp state
  have rest := Prod.mk.inj counts
  have drained : tally.crawler.Drained sampleStreamCrates :=
    ⟨rest.1, fun id => by
      obtain rfl : id = 0 := Subsingleton.elim _ _
      exact rest.2⟩
  exact ⟨tally, Transition.run_of_runWith ran, drained, page_counters_match eventsReadBack_sample
    matching_sampleHomes (Transition.reachesWith_of_runWith ran) drained⟩

/-- The home pages of both sites have the same text. Two pages are counted, by the worker and by
the service, and one is written. -/
theorem duplicate_page_counted : ∃ tally : PageTally SampleUrl 1,
    Transition.ReachesWith (tallyStep sampleStreamCrates none)
      (fun _ action => noneFails (.crawl action) = true) (PageTally.begin 0 sampleHomes) tally ∧
    tally.crawler.Drained sampleStreamCrates ∧ tally.written = 1 ∧
    tally.crawler.shared.service.storage.savedCounter = 2 ∧
      tally.crawler.shared.pagesCrawled = 2 := by
  have state : (Transition.runWith (tallyStep sampleStreamCrates none)
      (fun _ action => noneFails (.crawl action) = true)
      (sampleHomePages.map (.worker 0) ++ sampleConsumed 2)
      (PageTally.begin 0 sampleHomes : PageTally SampleUrl 1)).map (fun tally =>
        ((pagesAmong sampleStreamCrates tally.crawler.shared.service.pending,
          (tally.crawler.workers 0).uncountedPages), tally.written,
          tally.crawler.shared.service.storage.savedCounter,
          tally.crawler.shared.pagesCrawled)) = some ((0, 0), 1, 2, 2) := by decide +kernel
  obtain ⟨tally, ran, counts⟩ := Option.map_eq_some_iff.mp state
  obtain ⟨rest, written, saved, crawled⟩ := by simpa only [Prod.mk.injEq] using counts
  exact ⟨tally, Transition.reachesWith_of_runWith ran, ⟨rest.1, fun id => by
    obtain rfl : id = 0 := Subsingleton.elim _ _
    exact rest.2⟩, written, saved, crawled⟩

end PoliteCrawler
