/-
This file proves that a page that a worker publishes is in the table some time
later, or its text is close to one that was stored by then.

Three results meet here. The event of the page comes to the stream behind the
position of the group; every message is processed in the end; and the consumer
accepts each page event it comes to, as long as the page finds its domain. What
is left to show is that the consumer works on the entry it has read: the number
under which it holds an entry is the place of the entry in the stream. And what
the consumer takes for a near-duplicate is one, since a page that is accepted is
written with its hash, so the index holds no hash that was never stored.
-/

import PoliteCrawler.Draining
import PoliteCrawler.EventSourcedDb
import PoliteCrawler.PageAcceptance

namespace PoliteCrawler

open CrawlerDb ContentDeduplicator

variable {Url : Type} [DecidableEq Url] {crates : Crates Url} {n : Nat}
  {limit : Option (BitVec 64)}

/-! ### What becomes of a page -/

section Saves

omit [DecidableEq Url]

variable {before after : CrawlerStorage Url} {faults : DbFaults} {answer : List String}
  {stored : Set (BitVec 64)}

/-- A page event that is accepted is written, or its text is found in the index. -/
theorem Saved.kept {page : ParsedPageSaveData}
    (saved : Saved crates before faults (.parsedPage page) (.ok answer) after)
    (fit : CacheIdentifies before) :
    (∃ row ∈ after.db.pages.rows, RowOf crates after.db page row) ∨
      ∃ txt, page.cleanText = some txt ∧ before.dedup.isDuplicate crates txt = true := by
  cases written : PoliteCrawler.writes crates before.dedup faults (.ok answer)
      (.parsedPage page) with
  | true =>
    have applied : applyEvent crates (.parsedPage page) before.db = some after.db :=
      saved.applied fit written
    rcases applyEvent_page applied page.url with ⟨_, row, ⟨⟩, _, rowOf, found⟩ | ⟨others, _⟩
    · exact Or.inl ⟨row, (after.db.pages.find?_eq_some_iff.mp found).1, rowOf⟩
    · exact absurd rfl (others page rfl)
  | false =>
    have known : page.cleanText.any (before.dedup.isDuplicate crates) = true := by
      simpa [PoliteCrawler.writes, Except.isOk, Except.toBool] using written
    exact Or.inr ((Option.any_eq_true _ _).mp known)

/-- The index looks for texts within three bits, and holds no hash but those of the set. -/
structure CrawlerStorage.IndexWithin (stored : Set (BitVec 64)) (storage : CrawlerStorage Url) :
    Prop where
  dist : storage.dedup.maxDist ≤ 3
  held : ∀ hash ∈ storage.dedup.hashes, hash ∈ stored

theorem CrawlerStorage.IndexWithin.mono {more : Set (BitVec 64)}
    (within : before.IndexWithin stored) (included : stored ⊆ more) : before.IndexWithin more :=
  ⟨within.dist, fun hash member => included (within.held hash member)⟩

/-- What is taken for a near-duplicate is close to a hash of the set. -/
theorem CrawlerStorage.IndexWithin.near {txt : String} (within : before.IndexWithin stored)
    (known : before.dedup.isDuplicate crates txt = true) :
    ∃ hash ∈ stored, hammingDistance hash (calculateHash crates txt) ≤ 3 := by
  obtain ⟨hash, indexed, near⟩ := (isDuplicate_iff crates before.dedup within.dist txt).mp known
  exact ⟨hash, within.held hash indexed, near.trans within.dist⟩

theorem indexWithin_started (db : CrawlerDb) (userAgent : String) :
    (CrawlerStorage.started db.simhashes db userAgent : CrawlerStorage Url).IndexWithin
      {hash | hash ∈ db.simhashes} where
  dist := le_rfl
  held hash member := by
    have indexed : hash ∈ (ContentDeduplicator.init db.simhashes 3).hashes := member
    rwa [hashes_init] at indexed

/-- A lookup leaves the index. -/
theorem CrawlerStorage.IndexWithin.afterLookup (within : before.IndexWithin stored)
    (request : Lookup Url) : (before.afterLookup crates request).IndexWithin stored := by
  obtain ⟨_, _, _, state⟩ := afterLookup_state crates before request
  rw [state]
  exact ⟨within.dist, within.held⟩

/-- A page that is accepted is stored with its hash. -/
theorem Saved.indexWithin {event : ParsedData}
    (saved : Saved crates before faults event (.ok answer) after)
    (within : before.IndexWithin stored) :
    after.IndexWithin (stored ∪ {hash | hash ∈ after.db.simhashes}) := by
  have kept : before.IndexWithin (stored ∪ {hash | hash ∈ after.db.simhashes}) :=
    within.mono Set.subset_union_left
  cases saved with
  | written _ _ _ _ _ =>
    refine ⟨within.dist, fun hash member => ?_⟩
    rw [hashes_insert] at member
    rcases member with rfl | old
    · exact Or.inr (mem_simhashes_upsertPage.mpr (Or.inl rfl))
    · exact Or.inl (within.held hash old)
  | _ => exact ⟨kept.dist, kept.held⟩

end Saves

/-! ### The entries that the consumer holds -/

/-- The consumer holds every entry under its place in the stream. -/
def StorageService.HoldsRead (service : StorageService Url) : Prop :=
  ∀ entry id, (entry, id) ∈ service.consumer.batch → service.log.entries[id]? = some entry

section Consumer

omit [DecidableEq Url]

variable {service next : StorageService Url}

/-- A batch that gains nothing stays read, also when the stream grows. -/
theorem StorageService.HoldsRead.fewer (read : service.HoldsRead)
    (batch : next.consumer.batch ⊆ service.consumer.batch)
    (entries : service.log.entries <+: next.log.entries) : next.HoldsRead := by
  intro entry id member
  obtain ⟨added, grown⟩ := entries
  have found : service.log.entries[id]? = some entry := read entry id (batch member)
  obtain ⟨present, same⟩ := List.getElem?_eq_some_iff.mp found
  rw [← grown, List.getElem?_append_left present]
  exact found

/-- Only a read fills the batch. -/
theorem ServiceMoved.batch_sublist {action : ServiceAction Url}
    (moved : ServiceMoved crates service action next) (unread : action ≠ .read .answered) :
    next.consumer.batch.Sublist service.consumer.batch := by
  cases moved with
  | readAnswered reading => exact absurd rfl unread
  | groupCreated _ _ idle =>
    rw [(Consumer.idle_of_inHand idle).1]
    exact List.nil_sublist _
  | processed processing _ =>
    rw [processing]
    exact List.sublist_cons_self _ _
  | dropped processing _ goesOn =>
    rw [processing]
    rcases goesOn with rfl | rfl
    · exact List.nil_sublist _
    · rw [Consumer.batch_next]
      exact List.sublist_cons_self _ _
  | offered offering _ goesOn =>
    rw [offering]
    rcases goesOn with rfl | ⟨_, rfl⟩ <;> exact List.Sublist.refl _
  | pushed pushing _ goesOn | pushFailed pushing goesOn =>
    rw [pushing]
    rcases goesOn with rfl | rfl <;> exact List.Sublist.refl _
  | acked acking _ | ackFailed acking =>
    rw [acking, Consumer.batch_next]
    exact List.Sublist.refl _
  | published | readLost | readFailed | looked => exact List.Sublist.refl _
  | _ => exact List.nil_sublist _

theorem ServiceMoved.holdsRead {action : ServiceAction Url}
    (moved : ServiceMoved crates service action next) (read : service.HoldsRead) :
    next.HoldsRead := by
  by_cases reads : action = .read .answered
  · subst reads
    cases moved
    intro entry id member
    rw [Consumer.batch_next] at member
    have found : service.log.entries[id]? = some entry := GroupedLog.mem_fresh member
    exact found
  · refine read.fewer (moved.batch_sublist reads).subset ?_
    cases moved with
    | published entry => exact List.prefix_append _ _
    | _ => exact List.prefix_refl _

end Consumer

/-! ### The runs that deliver -/

/-- The consumer is neither stopped nor killed. -/
def DeploymentAction.leavesConsumer : DeploymentAction Url n → Bool
  | .crawl (.service .shutdown) | .crawl (.service .kill) => false
  | _ => true

/-- The step stores what is published, and leaves the consumer in its loop. -/
def Deployment.delivers (crates : Crates Url) (deployment : Deployment Url n)
    (action : DeploymentAction Url n) : Bool :=
  deployment.storesAll crates action && action.leavesConsumer

/-- What comes next is supplied, and what is published comes behind the position. -/
structure Deployment.Delivering (crates : Crates Url) (position : Nat)
    (deployment : Deployment Url n) : Prop where
  supplied : deployment.crawler.Supplied crates
  read : deployment.service.HoldsRead
  behind : position ≤ deployment.service.log.entries.length

variable {deployment next : Deployment Url n} {action : DeploymentAction Url n} {position : Nat}

omit [DecidableEq Url] in
/-- What is published comes to the stream behind all entries. -/
theorem getElem?_publishEvent (service : StorageService Url) (event : ParsedData) {call : Call}
    (performed : call ≠ .failed) :
    (publishEvent crates service event call).log.entries[service.log.entries.length]? =
      some (some (crates.toJson event)) := by
  rw [publishEvent, if_neg performed]
  exact List.getElem?_concat_length

/-- The event of a page comes to the stream behind all entries. -/
theorem page_streamed (readBack : EventsReadBack crates) {id : Fin n} {url : Url} {ticket : Nat}
    {page : ParsedPage Url} {decided : CrawlerStorage Url} {call : Call}
    (saving : deployment.crawler.workers id = .working url ticket (.savingPage page decided))
    (grounded : (deployment.crawler.workers id).Grounded crates deployment.service.storage.db)
    (performed : call ≠ .failed)
    (moved : deploymentStep crates limit (.crawl (.worker id (.redis call))) deployment =
      some next) :
    ∃ entry, next.service.log.entries[deployment.service.log.entries.length]? = some entry ∧
      eventOf crates entry = some (.parsedPage (convertParsedPageToSaveData crates page)) := by
  rw [saving] at grounded
  obtain ⟨_, keywordsFile, data, rfl⟩ := grounded
  obtain ⟨_, _, crawled⟩ := crawlerStep_of_moved moved
  obtain ⟨⟨shared, worker⟩, stepped, left⟩ := Option.map_eq_some_iff.mp crawled
  rw [saving] at stepped
  obtain ⟨published, rfl⟩ := Prod.mk.inj (Option.some.inj stepped)
  rw [if_neg performed] at published
  refine ⟨some _, ?_, readBack.page keywordsFile data⟩
  show next.crawler.shared.service.log.entries[_]? = _
  rw [← left, ← published]
  exact getElem?_publishEvent deployment.crawler.shared.service _ performed

theorem deploymentStep_delivering (readBack : EventsReadBack crates)
    (moved : deploymentStep crates limit action deployment = some next)
    (delivering : deployment.Delivering crates position)
    (stores : deployment.storesAll crates action = true) : next.Delivering crates position := by
  obtain ⟨supplied, read, behind⟩ := delivering
  have grown := deploymentStep_entries moved
  refine ⟨deploymentStep_supplied moved readBack supplied stores, ?_,
    behind.trans grown.length_le⟩
  rcases deploymentStep_stream moved with ⟨served, _, stepped⟩ | ⟨_, consumer, _, _⟩
  · exact (serviceStep_moved crates stepped).holdsRead read
  · refine read.fewer ?_ grown
    rw [consumer]
    exact List.Subset.refl _

/-- What comes to the front of the batch is saved. -/
theorem Deployment.Delivering.accepts (delivering : deployment.Delivering crates position)
    {entry : StreamEntry} {id : Nat} {batch : List (StreamEntry × Nat)} {faults : DbFaults}
    (processing : deployment.service.consumer = .processing ((entry, id) :: batch))
    (stores : deployment.storesAll crates (.crawl (.service (.process faults))) = true) :
    ∃ answer, (processStreamEntry crates deployment.service.storage faults entry).1 =
      .ok answer := by
  obtain ⟨reads, writes⟩ := Bool.and_eq_true_iff.mp stores
  obtain ⟨_, answer, _, _, _, succeeded⟩ := delivering.supplied.accepting.accepts processing
    (by simpa using reads) (by simpa using writes)
  exact ⟨answer, succeeded⟩

/-- Where everything is delivered, the consumer is not disturbed. -/
theorem Deployment.Delivering.undisturbed (delivering : deployment.Delivering crates position)
    (delivers : deployment.delivers crates action = true) :
    deployment.undisturbed crates action := by
  obtain ⟨stores, leaves⟩ := Bool.and_eq_true_iff.mp delivers
  intro served seen
  cases action with
  | crawl action =>
    cases action with
    | service action =>
      obtain rfl : action = served := Option.some.inj seen
      cases action with
      | read call =>
        have kept : call ≠ .lost := of_decide_eq_true stores
        exact kept
      | process faults =>
        intro entry id batch processing
        obtain ⟨answer, succeeded⟩ := delivering.accepts processing stores
        rw [succeeded]
        exact fun panics => by cases panics
      | shutdown | kill => cases leaves
      | _ => trivial
    | _ => cases seen
  | _ => cases seen

/-! ### Every published page is stored -/

omit [DecidableEq Url] in
theorem DeploymentAction.eq_of_onService {served : ServiceAction Url}
    (seen : action.onService = some served) : action = .crawl (.service served) := by
  cases action with
  | crawl action =>
    cases action with
    | service action => rw [Option.some.inj seen]
    | _ => cases seen
  | _ => cases seen

/-- The action hands the consumer the entry with the number, and its event is accepted. -/
def Deployment.accepts (crates : Crates Url) (deployment : Deployment Url n) (id : Nat)
    (event : ParsedData) (action : DeploymentAction Url n) : Prop :=
  ∃ faults entry batch answer, action = .crawl (.service (.process faults)) ∧
    deployment.service.consumer = .processing ((entry, id) :: batch) ∧
    eventOf crates entry = some event ∧
    (processStreamEntry crates deployment.service.storage faults entry).1 = .ok answer

/-- An event that is accepted is saved. -/
theorem Deployment.accepts.saved {id : Nat} {event : ParsedData}
    (accepted : deployment.accepts crates id event action)
    (moved : deploymentStep crates limit action deployment = some next) :
    ∃ faults answer, Saved crates deployment.service.storage faults event (.ok answer)
      next.service.storage := by
  obtain ⟨faults, entry, batch, answer, rfl, processing, decoded, succeeded⟩ := accepted
  have saved : Saved crates deployment.service.storage faults event (.ok answer)
      (processStreamEntry crates deployment.service.storage faults entry).2 := by
    have saved := saveParsedData_saved crates deployment.service.storage faults event
    rwa [← processStreamEntry_of_eventOf decoded, succeeded] at saved
  rcases deploymentStep_stream moved with ⟨_, ⟨⟩, stepped⟩ | ⟨unseen, _⟩
  · have left : deployment.service.process crates faults = some next.service := stepped
    rw [StorageService.process, processing] at left
    rw [← Option.some.inj left]
    exact ⟨faults, answer, saved⟩
  · cases unseen

/-- The entry that is handled is that of the stream, and its event is accepted. -/
theorem accepts_of_handles (delivering : deployment.Delivering crates position)
    (stores : deployment.storesAll crates action = true) {id : Nat}
    (handled : deployment.handles id action) :
    ∃ entry, deployment.service.log.entries[id]? = some entry ∧
      ∀ event, eventOf crates entry = some event → deployment.accepts crates id event action := by
  obtain ⟨served, seen, handles⟩ := handled
  obtain rfl := DeploymentAction.eq_of_onService seen
  cases served with
  | process faults =>
    obtain ⟨entry, batch, processing⟩ := handles
    refine ⟨entry, delivering.read entry id (by rw [processing]; exact List.mem_cons_self), ?_⟩
    intro event decoded
    obtain ⟨answer, succeeded⟩ := delivering.accepts processing stores
    exact ⟨faults, entry, batch, answer, rfl, processing, decoded, succeeded⟩
  | _ => exact handles.elim

/-! ### The index along a run -/

/-- A worker leaves the storage to a lookup at most. -/
theorem WorkerMoved.storage_kept {shared after : Shared Url} {worker left : Worker Url}
    {input : Input Url} (moved : WorkerMoved crates shared worker input after left) :
    after.service.storage = shared.service.storage ∨
      ∃ request, after.service.storage = shared.service.storage.afterLookup crates request := by
  rcases moved.stream_cases with aside | ⟨_, _, _, _, _, rfl⟩ | ⟨_, _, _, _, _, _, _, _, rfl⟩
  · exact aside.storage
  · exact Or.inl (publishEvent_storage _ _ _)
  · exact Or.inl (publishEvent_storage _ _ _)

theorem crawlerStep_storage {action : CrawlerAction Url n} {crawler after : Crawler Url n}
    (moved : crawlerStep crates limit action crawler = some after)
    (others : ∀ served, action ≠ .service served) :
    after.shared.service.storage = crawler.shared.service.storage ∨ ∃ request,
      after.shared.service.storage = crawler.shared.service.storage.afterLookup crates request := by
  cases crawlerStep_moved crates moved with
  | worker worked => exact worked.storage_kept
  | service _ => exact absurd rfl (others _)
  | _ => exact Or.inl rfl

theorem deploymentStep_storage
    (moved : deploymentStep crates limit action deployment = some next)
    (unseen : action.onService = none) :
    next.service.storage = deployment.service.storage ∨
      ∃ request, next.service.storage = deployment.service.storage.afterLookup crates request := by
  cases action with
  | crawl action =>
    obtain ⟨_, _, crawled⟩ := crawlerStep_of_moved moved
    refine crawlerStep_storage crawled ?_
    rintro served rfl
    cases unseen
  | launch input =>
    obtain ⟨⟨shared, launch⟩, launched, rfl⟩ := Option.map_eq_some_iff.mp moved
    exact (launchStep_aside launched).storage
  | restart startUrl seed =>
    cases moved
    exact Or.inl rfl

omit [DecidableEq Url] in
/-- Only a page that is written comes to the index, and a start loads it from the table. -/
theorem ServiceMoved.indexWithin {service after : StorageService Url} {action : ServiceAction Url}
    {stored : Set (BitVec 64)} (moved : ServiceMoved crates service action after)
    (accepts : ∀ faults entry id batch, action = .process faults →
      service.consumer = .processing ((entry, id) :: batch) → ∃ answer,
        (processStreamEntry crates service.storage faults entry).1 = .ok answer)
    (within : service.storage.IndexWithin stored) :
    after.storage.IndexWithin (stored ∪ {hash | hash ∈ after.storage.db.simhashes}) := by
  have kept : service.storage.IndexWithin (stored ∪ {hash | hash ∈ after.storage.db.simhashes}) :=
    within.mono Set.subset_union_left
  cases moved with
  | started _ _ =>
    exact (indexWithin_started service.storage.db service.storage.agentName).mono
      Set.subset_union_right
  | @processed faults entry _ _ _ processing succeeded =>
    cases decoded : eventOf crates entry with
    | none =>
      rw [(processStreamEntry_of_eventOf_none decoded service.storage faults).1] at kept ⊢
      exact kept
    | some event =>
      rw [processStreamEntry_of_eventOf decoded] at succeeded ⊢
      have saved := saveParsedData_saved crates service.storage faults event
      rw [succeeded] at saved
      exact saved.indexWithin within
  | dropped processing failed _ =>
    obtain ⟨_, succeeded⟩ := accepts _ _ _ _ rfl processing
    cases failed.symm.trans succeeded
  | offered _ noted _ =>
    rcases noted with rfl | ⟨url, rfl⟩
    · exact kept
    · exact kept.afterLookup (.insertUrl url)
  | looked request => exact kept.afterLookup request
  | _ => exact kept

theorem deploymentStep_indexWithin {stored : Set (BitVec 64)}
    (moved : deploymentStep crates limit action deployment = some next)
    (delivering : deployment.Delivering crates position)
    (stores : deployment.storesAll crates action = true)
    (within : deployment.service.storage.IndexWithin stored) :
    next.service.storage.IndexWithin
      (stored ∪ {hash | hash ∈ next.service.storage.db.simhashes}) := by
  rcases deploymentStep_stream moved with ⟨served, seen, stepped⟩ | ⟨unseen, _⟩
  · obtain rfl := DeploymentAction.eq_of_onService seen
    refine (serviceStep_moved crates stepped).indexWithin ?_ within
    rintro faults entry id batch rfl processing
    exact delivering.accepts processing stores
  · have kept : deployment.service.storage.IndexWithin
        (stored ∪ {hash | hash ∈ next.service.storage.db.simhashes}) :=
      within.mono Set.subset_union_left
    rcases deploymentStep_storage moved unseen with same | ⟨request, looked⟩
    · rw [same] at kept ⊢
      exact kept
    · rw [looked] at kept ⊢
      exact kept.afterLookup request

section Run

variable {path : Transition.PathWith (deploymentStep (n := n) crates limit)
    (fun deployment action => deployment.delivers crates action = true)}
  {startUrl seed : Option String} {clock : Instant} {service : StorageService Url}

/-- Along the run what comes next is supplied, and what is published comes behind the position. -/
theorem delivering_along (readBack : EventsReadBack crates)
    (begins : path.state 0 = Deployment.begin startUrl seed clock service)
    (reading : service.consumer = .reading) (grouped : service.log.readTo = some position)
    (accepting : service.Accepting crates) (time : Nat) :
    (path.state time).Delivering crates position := by
  have start : (path.state 0).Delivering crates position := by
    rw [begins]
    refine ⟨⟨accepting, fun _ => trivial, List.forall_mem_nil _⟩, ?_, ?_⟩
    · show service.HoldsRead
      intro entry id member
      rw [reading] at member
      cases member
    · obtain ⟨group, found, rfl⟩ := Option.map_eq_some_iff.mp grouped
      exact service.log.position_le group found
  exact Transition.PathWith.lasts start (fun _ _ _ before delivers moved =>
    deploymentStep_delivering readBack moved before (Bool.and_eq_true_iff.mp delivers).1) time
    (Nat.zero_le time)

/-- Every event that comes to the stream is accepted in the end. -/
theorem event_accepted (readBack : EventsReadBack crates)
    (begins : path.state 0 = Deployment.begin startUrl seed clock service)
    (reading : service.consumer = .reading) (grouped : service.log.readTo = some position)
    (accepting : service.Accepting crates)
    (fair : path.Recurs fun deployment action =>
      deployment.service.Idle ∨ deployment.worksAt action)
    {time id : Nat} {entry : StreamEntry} {event : ParsedData} (unread : position ≤ id)
    (found : (path.state time).service.log.entries[id]? = some entry)
    (decoded : eventOf crates entry = some event) :
    ∃ later, id < (path.state later).service.log.entries.length ∧
      (path.state later).accepts crates id event (path.action later) := by
  have delivering : ∀ later, (path.state later).Delivering crates position :=
    delivering_along readBack begins reading grouped accepting
  let calm : Transition.PathWith (deploymentStep (n := n) crates limit)
      (Deployment.undisturbed crates) :=
    ⟨path.state, path.action, fun later => (delivering later).undisturbed (path.allowed later),
      path.moves⟩
  have due : (calm.state 0).service.Due id := by
    have first : (path.state 0).service = service := by rw [begins]; rfl
    show (path.state 0).service.Due id
    rw [first]
    exact StorageService.due_of_reading reading grouped unread
  have present : id < (calm.state time).service.log.entries.length :=
    (List.getElem?_eq_some_iff.mp found).1
  obtain ⟨later, _, handled⟩ := handled_of_due due fair present
  obtain ⟨entry', found', accepts⟩ := accepts_of_handles (delivering later)
    (Bool.and_eq_true_iff.mp (path.allowed later)).1 handled
  have grows : ∀ {early late}, early ≤ late → ∀ {kept},
      (path.state early).service.log.entries[id]? = some kept →
        (path.state late).service.log.entries[id]? = some kept := by
    intro early late after kept there
    let holdsEntry : Deployment Url n → Prop := fun deployment =>
      deployment.service.log.entries[id]? = some kept
    have now : holdsEntry (path.state early) := there
    refine Transition.PathWith.lasts now (fun before action next held _ moved => ?_) late after
    obtain ⟨added, grown⟩ := deploymentStep_entries moved
    show next.service.log.entries[id]? = some kept
    rw [← grown, List.getElem?_append_left (List.getElem?_eq_some_iff.mp held).1]
    exact held
  have same : some entry = some entry' :=
    (grows (le_max_left time later) found).symm.trans (grows (le_max_right time later) found')
  exact ⟨later, (List.getElem?_eq_some_iff.mp found').1,
    accepts event (Option.some.inj same ▸ decoded)⟩

/-- What the stream has not got at some time comes to it later. -/
theorem later_of_entries {time later : Nat}
    (grown : (path.state time).service.log.entries.length <
      (path.state later).service.log.entries.length) : time < later := by
  by_contra before
  let shorter : Deployment Url n → Prop := fun deployment =>
    (path.state later).service.log.entries.length ≤ deployment.service.log.entries.length
  have start : shorter (path.state later) := le_rfl
  have stays : shorter (path.state time) :=
    Transition.PathWith.lasts start (fun _ _ _ held _ moved =>
      held.trans (deploymentStep_entries moved).length_le) time (not_lt.mp before)
  exact absurd grown (not_lt.mpr stays)

/-- The hashes that were in the table at the time, or before. -/
def storedBy (path : Transition.PathWith (deploymentStep (n := n) crates limit)
    (fun deployment action => deployment.delivers crates action = true)) (time : Nat) :
    Set (BitVec 64) :=
  {hash | ∃ earlier ≤ time, hash ∈ (path.state earlier).service.storage.db.simhashes}

/-- Along the run the index holds only hashes that were stored. -/
theorem indexWithin_along (readBack : EventsReadBack crates)
    (begins : path.state 0 = Deployment.begin startUrl seed clock service)
    (reading : service.consumer = .reading) (grouped : service.log.readTo = some position)
    (accepting : service.Accepting crates)
    (indexed : service.storage.IndexWithin {hash | hash ∈ service.storage.db.simhashes})
    (time : Nat) : (path.state time).service.storage.IndexWithin (storedBy path time) := by
  induction time with
  | zero =>
    have first : (path.state 0).service = service := by rw [begins]; rfl
    rw [first]
    refine indexed.mono fun hash member => ⟨0, le_rfl, ?_⟩
    rw [first]
    exact member
  | succ time inductionHypothesis =>
    have delivering := delivering_along readBack begins reading grouped accepting time
    refine (deploymentStep_indexWithin (path.moves time) delivering
      (Bool.and_eq_true_iff.mp (path.allowed time)).1 inductionHypothesis).mono ?_
    rintro hash (⟨earlier, before, member⟩ | member)
    · exact ⟨earlier, before.trans (Nat.le_succ time), member⟩
    · exact ⟨time + 1, le_rfl, member⟩

end Run

/-- In a run in which every page that is published finds its domain, and the consumer goes on
whenever it has something to do, the event of every page that is published is later handed to the
consumer and accepted, and then the table has the row of the page, or its text is within three
bits of that of a row that was stored by then. -/
theorem published_pages_stored
    {path : Transition.PathWith (deploymentStep (n := n) crates limit)
      (fun deployment action => deployment.delivers crates action = true)}
    {startUrl seed : Option String} {clock : Instant} {service : StorageService Url}
    (readBack : EventsReadBack crates)
    (begins : path.state 0 = Deployment.begin startUrl seed clock service)
    (reading : service.consumer = .reading) (grouped : service.log.readTo = some position)
    (accepting : service.Accepting crates)
    (indexed : service.storage.IndexWithin {hash | hash ∈ service.storage.db.simhashes})
    (fair : path.Recurs fun deployment action =>
      deployment.service.Idle ∨ deployment.worksAt action)
    {time : Nat} {id : Fin n} {url : Url} {ticket : Nat} {page : ParsedPage Url}
    {decided : CrawlerStorage Url} {call : Call}
    (saving : (path.state time).crawler.workers id =
      .working url ticket (.savingPage page decided))
    (publishes : path.action time = .crawl (.worker id (.redis call)))
    (performed : call ≠ .failed) :
    let saved := convertParsedPageToSaveData crates page
    ∃ later, time < later ∧
      (path.state later).accepts crates (path.state time).service.log.entries.length
        (.parsedPage saved) (path.action later) ∧
      ((∃ row ∈ (path.state (later + 1)).service.storage.db.pages.rows,
          RowOf crates (path.state (later + 1)).service.storage.db saved row) ∨
        ∃ txt, saved.cleanText = some txt ∧ ∃ earlier ≤ later,
          ∃ row ∈ (path.state earlier).service.storage.db.pages.rows, ∃ hash,
            row.simhash = some hash ∧ hammingDistance hash (calculateHash crates txt) ≤ 3) := by
  have delivering : ∀ later, (path.state later).Delivering crates position :=
    delivering_along readBack begins reading grouped accepting
  have moved := path.moves time
  rw [publishes] at moved
  obtain ⟨entry, found, decoded⟩ := page_streamed readBack saving
    ((delivering time).supplied.grounded id) performed moved
  obtain ⟨later, present, accepted⟩ := event_accepted readBack begins reading grouped accepting
    fair (delivering time).behind found decoded
  refine ⟨later, later_of_entries present, accepted, ?_⟩
  obtain ⟨faults, answer, saved⟩ := accepted.saved (path.moves later)
  have fit : CacheIdentifies (path.state later).service.storage :=
    (delivering later).supplied.accepting.agrees.identifies crates
  rcases saved.kept fit with written | ⟨txt, text, known⟩
  · exact Or.inl written
  · obtain ⟨hash, ⟨earlier, before, member⟩, near⟩ :=
      (indexWithin_along readBack begins reading grouped accepting indexed later).near known
    obtain ⟨row, stored, column⟩ := mem_simhashes.mp member
    exact Or.inr ⟨txt, text, earlier, before, row, stored, hash, column, near⟩

/-! ### The sample deployment -/

/-- Two runs that follow each other, with nothing left to do for the consumer, go on for ever. -/
theorem exists_delivering_path {before after : List (DeploymentAction Url n)}
    {start middle final : Deployment Url n}
    (ran : Transition.runWith (deploymentStep crates limit)
      (fun deployment action => deployment.delivers crates action = true) before start =
        some middle)
    (goesOn : Transition.runWith (deploymentStep crates limit)
      (fun deployment action => deployment.delivers crates action = true) (action :: after)
        middle = some final)
    (reading : final.service.consumer = .reading) (drained : final.service.log.undelivered = []) :
    ∃ path : Transition.PathWith (deploymentStep (n := n) crates limit)
        (fun deployment action => deployment.delivers crates action = true),
      path.state 0 = start ∧
        (path.Recurs fun deployment action =>
          deployment.service.Idle ∨ deployment.worksAt action) ∧
        ∃ time, path.state time = middle ∧ path.action time = action := by
  have quiet : final.delivers crates (.crawl (.tick 0)) = true := rfl
  obtain ⟨rest, starts, takes, ends⟩ := Transition.PathWith.exists_of_run
    (Transition.permits_of_runWith goesOn) (Transition.run_of_runWith goesOn) quiet
    (deploymentStep_tick_zero final)
  obtain ⟨path, begins, _, follows⟩ := Transition.PathWith.exists_append rest
    (Transition.permits_of_runWith ran) (by
      rw [starts]
      exact Transition.run_of_runWith ran)
  refine ⟨path, begins, fun time => ?_, before.length + 0, ?_, ?_⟩
  · refine ⟨before.length + ((action :: after).length + time), ?_, Or.inl ?_⟩
    · exact (Nat.le_add_left time _).trans (Nat.le_add_left _ _)
    · rw [(follows _).1, (ends _ (Nat.le_add_right _ time)).1]
      exact ⟨reading, drained⟩
  · exact (follows 0).1.trans starts
  · exact (follows 0).2.trans (takes 0 (Nat.zero_lt_succ _))

/-- The worker takes the home page and downloads it. -/
def sampleDownloaded : List (DeploymentAction SampleUrl 1) :=
  sampleLaunch 1 ++
    sampleWorks (sampleTake ++ [.rpc DbFaults.none .answered, .web sampleWeb none])

/-- The worker publishes the page, and the consumer reads, saves and acknowledges the event. -/
def samplePublishing : List (DeploymentAction SampleUrl 1) :=
  [.crawl (.worker (Fin.last 0) (.redis .answered)), .crawl (.service (.read .answered)),
    .crawl (.service (.process DbFaults.none)), .crawl (.service (.ack .answered))]

/-- The event of the home page is accepted in the run, and the page is stored then. -/
theorem published_pages_stored_sample : ∃ path : Transition.PathWith
      (deploymentStep (n := 1) sampleStreamCrates none)
      (fun deployment action => deployment.delivers sampleStreamCrates action = true),
    path.state 0 = sampleDeployment "https://a.example/" ∧ ∃ time later, time < later ∧
      (path.state later).accepts sampleStreamCrates 0 (.parsedPage (samplePage .home ""))
        (path.action later) ∧
      ((∃ row ∈ (path.state (later + 1)).service.storage.db.pages.rows,
          RowOf sampleStreamCrates (path.state (later + 1)).service.storage.db
            (samplePage .home "") row) ∨
        ∃ txt, (samplePage .home "").cleanText = some txt ∧ ∃ earlier ≤ later,
          ∃ row ∈ (path.state earlier).service.storage.db.pages.rows, ∃ hash,
            row.simhash = some hash ∧
              hammingDistance hash (calculateHash sampleStreamCrates txt) ≤ 3) := by
  obtain ⟨middle, final, page, decided, ran, saving, saved, first, goesOn, reading, drained⟩ :
      ∃ (middle final : Deployment SampleUrl 1) (page : ParsedPage SampleUrl)
        (decided : CrawlerStorage SampleUrl),
      Transition.runWith (deploymentStep sampleStreamCrates none)
        (fun deployment action => deployment.delivers sampleStreamCrates action = true)
        sampleDownloaded (sampleDeployment "https://a.example/") = some middle ∧
      middle.crawler.workers (Fin.last 0) = .working .home 0 (.savingPage page decided) ∧
      convertParsedPageToSaveData sampleStreamCrates page = samplePage .home "" ∧
      middle.service.log.entries.length = 0 ∧
      Transition.runWith (deploymentStep sampleStreamCrates none)
        (fun deployment action => deployment.delivers sampleStreamCrates action = true)
        samplePublishing middle = some final ∧
      final.service.consumer = .reading ∧ final.service.log.undelivered = [] :=
    ⟨_, _, _, _, rfl, rfl, rfl, rfl, rfl, rfl, rfl⟩
  obtain ⟨path, begins, fair, time, now, publishes⟩ :=
    exists_delivering_path ran goesOn reading drained
  have accepting : (sampleDeployment "https://a.example/").service.Accepting sampleStreamCrates :=
    ⟨rfl, cacheFits_started _ _ _, List.forall_mem_nil _, trivial⟩
  obtain ⟨later, after, accepted, stored⟩ := published_pages_stored eventsReadBack_sample begins
    rfl rfl accepting (indexWithin_started _ _) fair (now ▸ saving) publishes
    (fun same => by cases same)
  rw [now, first, saved] at accepted
  rw [saved] at stored
  exact ⟨path, begins, time, later, after, accepted, stored⟩

end PoliteCrawler
