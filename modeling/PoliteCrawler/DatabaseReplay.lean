/-
This file proves that the database is the replay of the events that were written.

`tableWrites` is what a step of the deployment writes to the tables: the event of
the entry that the consumer processes, when it is a page event that is accepted
and is not taken for a near-duplicate, or a domain event whose write goes through.
In every run, with lookups and evictions, failing and repeated database attempts,
panics, kills and restarts, the tables are what `applyEvent` makes of these
events, in the order of the stream and each at most once. The cache is what could
break this, since the id under which a page is saved comes from it; that its
entries have the ids of their rows is the invariant that carries the proof.
-/

import PoliteCrawler.EventSourcedDb
import PoliteCrawler.PublishedPages

namespace PoliteCrawler

open CrawlerDb ContentDeduplicator

variable {Url : Type} {crates : Crates Url}

/-! ### The history of a run -/

/-- What processing an entry writes to the tables, with the place of the entry in the stream. -/
def writtenOf (crates : Crates Url) (storage : CrawlerStorage Url) (faults : DbFaults)
    (entry : StreamEntry) (id : Nat) : List (Nat × ParsedData) :=
  match eventOf crates entry with
  | some event =>
    if writes crates storage.dedup faults (storage.saveParsedData crates faults event).1 event then
      [(id, event)]
    else []
  | none => []

def StorageService.tableWrites (crates : Crates Url) (service : StorageService Url) :
    ServiceAction Url → List (Nat × ParsedData)
  | .process faults =>
    match service.consumer with
    | .processing ((entry, id) :: _) => writtenOf crates service.storage faults entry id
    | _ => []
  | _ => []

/-- The tables are the replay of the history, and what the consumer holds comes after it. -/
structure StorageService.Replays (crates : Crates Url) (old : CrawlerDb)
    (history : List (Nat × ParsedData)) (service : StorageService Url) : Prop where
  ascending : service.log.Ascending
    (history.map Prod.fst ++ service.consumer.batch.map Prod.snd)
  recorded : ∀ id event, (id, event) ∈ history →
    ∃ entry, service.log.entries[id]? = some entry ∧ eventOf crates entry = some event
  read : service.HoldsRead
  fit : CacheIdentifies service.storage
  replayed : replay crates (history.map Prod.snd) old = some service.storage.db

section Service

variable {service next : StorageService Url} {old : CrawlerDb} {history : List (Nat × ParsedData)}

/-- Events that are recorded stay so under a stream that grows. -/
theorem recorded_grow {entries more : List StreamEntry} (grown : entries <+: more)
    (recorded : ∀ id event, (id, event) ∈ history →
      ∃ entry, entries[id]? = some entry ∧ eventOf crates entry = some event) :
    ∀ id event, (id, event) ∈ history →
      ∃ entry, more[id]? = some entry ∧ eventOf crates entry = some event := by
  intro id event member
  obtain ⟨entry, found, decoded⟩ := recorded id event member
  obtain ⟨added, rfl⟩ := grown
  refine ⟨entry, ?_, decoded⟩
  rwa [List.getElem?_append_left (List.getElem?_eq_some_iff.mp found).1]

/-- A step that writes nothing and hands out nothing. -/
theorem StorageService.Replays.beside (replays : service.Replays crates old history)
    (batch : next.consumer.batch.Sublist service.consumer.batch)
    (further : service.log.Further next.log) (entries : service.log.entries <+: next.log.entries)
    (db : next.storage.db = service.storage.db) (fit : CacheIdentifies next.storage) :
    next.Replays crates old history where
  ascending := (replays.ascending.sublist
    ((List.Sublist.refl _).append (batch.map Prod.snd))).further further
  recorded := recorded_grow entries replays.recorded
  read := replays.read.fewer batch.subset entries
  fit := fit
  replayed := by
    rw [db]
    exact replays.replayed

/-- What is left of the batch is read, and comes after the history. -/
theorem StorageService.Replays.rest (replays : service.Replays crates old history)
    {entry : StreamEntry} {id : Nat} {batch : List (StreamEntry × Nat)} {consumer : Consumer}
    (processing : service.consumer = .processing ((entry, id) :: batch))
    (rest : consumer.batch.Sublist batch) :
    consumer.batch ⊆ service.consumer.batch ∧
      service.log.Ascending (history.map Prod.fst ++ id :: consumer.batch.map Prod.snd) := by
  have ascending := replays.ascending
  rw [processing] at ascending ⊢
  refine ⟨List.Subset.trans rest.subset (List.subset_cons_self _ _), ascending.sublist ?_⟩
  exact (List.Sublist.refl _).append ((rest.map Prod.snd).cons_cons id)

/-- An event that is processed and written comes to the history; another leaves the tables as they
are. -/
theorem StorageService.Replays.saved (replays : service.Replays crates old history)
    {faults : DbFaults} {entry : StreamEntry} {id : Nat} {batch : List (StreamEntry × Nat)}
    {consumer : Consumer} {event : ParsedData}
    (processing : service.consumer = .processing ((entry, id) :: batch))
    (rest : consumer.batch.Sublist batch) (decoded : eventOf crates entry = some event) :
    StorageService.Replays crates old (history ++ writtenOf crates service.storage faults entry id)
      { service with
        storage := (service.storage.saveParsedData crates faults event).2
        consumer } := by
  obtain ⟨held, ascending⟩ := replays.rest processing rest
  have read : StorageService.HoldsRead { service with
      storage := (service.storage.saveParsedData crates faults event).2, consumer } :=
    replays.read.fewer held (List.prefix_refl _)
  have stepped : storageStep crates (.save event faults) service.storage =
      some (service.storage.saveParsedData crates faults event).2 := rfl
  have fit := storageStep_cacheIdentifies crates replays.fit stepped
  have saved := saveParsedData_saved crates service.storage faults event
  simp only [writtenOf, decoded]
  split
  · rename_i written
    have applied := saved.applied replays.fit written
    refine ⟨?_, ?_, read, fit, ?_⟩
    · rw [List.map_append, List.append_assoc]
      exact ascending
    · intro other event' member
      rcases List.mem_append.mp member with before | added
      · exact replays.recorded other event' before
      · obtain ⟨rfl, rfl⟩ := Prod.mk.inj (List.mem_singleton.mp added)
        refine ⟨entry, replays.read entry other ?_, decoded⟩
        rw [processing]
        exact List.mem_cons_self
    · rw [List.map_append]
      refine (replay_concat _ event old).trans ?_
      rw [replays.replayed]
      exact applied
  · rename_i unwritten
    have same := saved.unapplied (Bool.eq_false_iff.mpr unwritten)
    rw [List.append_nil]
    refine ⟨?_, replays.recorded, read, fit, ?_⟩
    · exact ascending.sublist ((List.Sublist.refl _).append (List.sublist_cons_self _ _))
    · rw [same]
      exact replays.replayed

theorem StorageService.Replays.processed (replays : service.Replays crates old history)
    {faults : DbFaults} {entry : StreamEntry} {id : Nat} {batch : List (StreamEntry × Nat)}
    {consumer : Consumer} (processing : service.consumer = .processing ((entry, id) :: batch))
    (rest : consumer.batch.Sublist batch) :
    StorageService.Replays crates old (history ++ service.tableWrites crates (.process faults))
      { service with
        storage := (processStreamEntry crates service.storage faults entry).2
        consumer } := by
  have writes : service.tableWrites crates (.process faults) =
      writtenOf crates service.storage faults entry id := by
    rw [StorageService.tableWrites, processing]
  rw [writes]
  cases decoded : eventOf crates entry with
  | some event =>
    rw [processStreamEntry_of_eventOf decoded]
    exact replays.saved processing rest decoded
  | none =>
    have nothing : writtenOf crates service.storage faults entry id = [] := by
      rw [writtenOf, decoded]
    rw [(processStreamEntry_of_eventOf_none decoded service.storage faults).1, nothing,
      List.append_nil]
    refine replays.beside ?_ (.of_eq rfl) (List.prefix_refl _) rfl replays.fit
    rw [processing]
    exact rest.trans (List.sublist_cons_self _ _)

/-- The position of the group only moves forward. -/
theorem ServiceMoved.further {action : ServiceAction Url}
    (moved : ServiceMoved crates service action next) : service.log.Further next.log := by
  cases moved with
  | groupCreated _ _ _ => exact GroupedLog.further_createGroup _
  | readAnswered _ | readLost _ => exact GroupedLog.further_deliver _ _
  | acked _ _ => exact .of_eq (GroupedLog.readTo_acknowledge _ _)
  | _ => exact .of_eq rfl

/-- Only processing an entry writes to the tables. -/
theorem ServiceMoved.sameTables {action : ServiceAction Url}
    (moved : ServiceMoved crates service action next)
    (unprocessed : ∀ faults, action ≠ .process faults) :
    next.storage.db = service.storage.db := by
  have looked : ∀ request,
      (service.storage.afterLookup crates request).db = service.storage.db := by
    intro request
    obtain ⟨_, _, _, state⟩ := afterLookup_state crates service.storage request
    rw [state]
  cases moved with
  | processed | dropped => exact absurd rfl (unprocessed _)
  | offered _ noted _ =>
    rcases noted with rfl | ⟨url, rfl⟩
    · rfl
    · exact looked _
  | looked request => exact looked request
  | _ => rfl

/-- Every step of the storage service keeps the tables a replay, of the events so far and of what
the step writes. -/
theorem serviceStep_replays {action : ServiceAction Url}
    (moved : serviceStep crates action service = some next)
    (replays : service.Replays crates old history) :
    next.Replays crates old (history ++ service.tableWrites crates action) := by
  have stepped := serviceStep_moved crates moved
  have fit : CacheIdentifies next.storage := stepped.cacheIdentifies crates replays.fit
  cases action with
  | process faults =>
    cases stepped with
    | processed processing _ => exact replays.processed processing (List.Sublist.refl _)
    | dropped processing _ goesOn =>
      refine replays.processed processing ?_
      rcases goesOn with rfl | rfl
      · exact List.nil_sublist _
      · rw [Consumer.batch_next]
  | read call =>
    simp only [StorageService.tableWrites, List.append_nil]
    by_cases answered : call = .answered
    · subst answered
      have read := stepped.holdsRead replays.read
      cases stepped with
      | readAnswered reading =>
        refine ⟨?_, replays.recorded, read, fit, replays.replayed⟩
        have ascending := replays.ascending
        rw [reading] at ascending
        rw [Consumer.batch_next]
        have before : service.log.Ascending (history.map Prod.fst) :=
          ascending.sublist (List.sublist_append_left _ _)
        exact before.deliver readCount
    · exact replays.beside (stepped.batch_sublist fun same =>
          answered (ServiceAction.read.inj same)) stepped.further (serviceStep_entries moved)
        (stepped.sameTables fun _ same => by cases same) fit
  | _ =>
    simp only [StorageService.tableWrites, List.append_nil]
    exact replays.beside (stepped.batch_sublist fun same => by cases same) stepped.further
      (serviceStep_entries moved) (stepped.sameTables fun _ same => by cases same) fit

end Service

/-! ### The deployment -/

section Deployments

variable [DecidableEq Url] {n : Nat} {limit : Option (BitVec 64)}
  {deployment next : Deployment Url n} {action : DeploymentAction Url n} {old : CrawlerDb}
  {history : List (Nat × ParsedData)}

/-- What a step of the deployment writes to the tables. -/
def tableWrites (crates : Crates Url) (action : DeploymentAction Url n)
    (deployment : Deployment Url n) : List (Nat × ParsedData) :=
  (action.onService.map (deployment.service.tableWrites crates)).getD []

theorem deploymentStep_replays
    (moved : deploymentStep crates limit action deployment = some next)
    (replays : deployment.service.Replays crates old history) :
    next.service.Replays crates old (history ++ tableWrites crates action deployment) := by
  rcases deploymentStep_stream moved with ⟨served, seen, stepped⟩ |
    ⟨unseen, consumer, position, entries⟩
  · rw [tableWrites, seen]
    exact serviceStep_replays stepped replays
  · rw [tableWrites, unseen, Option.map_none, Option.getD_none, List.append_nil]
    have batch : next.service.consumer.batch.Sublist deployment.service.consumer.batch := by
      rw [consumer]
    rcases deploymentStep_storage moved unseen with same | ⟨request, looked⟩
    · exact replays.beside batch (.of_eq position) entries (congrArg _ same) (same ▸ replays.fit)
    · obtain ⟨_, _, _, state⟩ := afterLookup_state crates deployment.service.storage request
      have stepped : storageStep crates (.lookup request) deployment.service.storage =
          some next.service.storage := by rw [looked]; rfl
      refine replays.beside batch (.of_eq position) entries ?_
        (storageStep_cacheIdentifies crates replays.fit stepped)
      rw [looked, state]

/-- What a run writes, and where in the stream it stands. -/
def written (crates : Crates Url) (limit : Option (BitVec 64))
    (actions : List (DeploymentAction Url n)) (start : Deployment Url n) :
    List (Nat × ParsedData) :=
  Transition.observed (deploymentStep crates limit) (tableWrites crates) actions start

/-- A run adds what it writes to the history. -/
theorem run_replays {actions : List (DeploymentAction Url n)} {first later : Deployment Url n}
    (begins : first.service.Replays crates old history)
    (ran : Transition.run (deploymentStep crates limit) actions first = some later) :
    later.service.Replays crates old (history ++ written crates limit actions first) := by
  let told : List (Nat × ParsedData) → Deployment Url n → Prop := fun history deployment =>
    deployment.service.Replays crates old history
  have start : told history first := begins
  exact Transition.observed_invariant
    (fun _ _ _ _ replays moved => deploymentStep_replays moved replays) start ran

omit [DecidableEq Url] in
theorem begin_replays (startUrl seed : Option String) (clock : Instant) (db : CrawlerDb)
    (userAgent : String) :
    (Deployment.begin startUrl seed clock (StorageService.initial db userAgent) :
      Deployment Url n).service.Replays crates db [] :=
  ⟨GroupedLog.ascending_nil _, (fun _ _ absent => by cases absent),
    (fun _ _ absent => by cases absent), cacheFits_started _ db userAgent, rfl⟩

omit [DecidableEq Url] in
/-- The tables are also the replay of nothing from what they are now. -/
theorem StorageService.Replays.afresh {service : StorageService Url}
    (replays : service.Replays crates old history) :
    service.Replays crates service.storage.db [] :=
  ⟨replays.ascending.sublist (List.sublist_append_right _ _),
    (fun _ _ absent => by cases absent), replays.read, replays.fit, rfl⟩

/-- In every run the tables are the replay of what was written: events of the stream, in its order
and each at most once. -/
theorem database_replays {startUrl seed : Option String} {clock : Instant} {db : CrawlerDb}
    {userAgent : String} {actions : List (DeploymentAction Url n)}
    (ran : Transition.run (deploymentStep crates limit) actions
      (Deployment.begin startUrl seed clock (StorageService.initial db userAgent)) =
        some deployment) :
    let history := written crates limit actions
      (Deployment.begin startUrl seed clock (StorageService.initial db userAgent))
    (history.map Prod.fst).Pairwise (· < ·) ∧
      (∀ id event, (id, event) ∈ history →
        ∃ entry, deployment.service.log.entries[id]? = some entry ∧
          eventOf crates entry = some event) ∧
      replay crates (history.map Prod.snd) db = some deployment.service.storage.db := by
  have replays := run_replays (begin_replays startUrl seed clock db userAgent) ran
  exact ⟨replays.ascending.sorted.sublist (List.sublist_append_left _ _), replays.recorded,
    replays.replayed⟩

/-- Between any two states of a run no row is lost and no domain changes its id, and a row of the
later state is as it was, or that of the last event that was written for its URL. -/
theorem rows_live_on {startUrl seed : Option String} {clock : Instant} {db : CrawlerDb}
    {userAgent : String} {first later : Deployment Url n}
    {before after : List (DeploymentAction Url n)}
    (ran : Transition.run (deploymentStep crates limit) before
      (Deployment.begin startUrl seed clock (StorageService.initial db userAgent)) = some first)
    (goesOn : Transition.run (deploymentStep crates limit) after first = some later) :
    first.service.storage.db.LivesOnIn later.service.storage.db ∧
      ∀ row ∈ later.service.storage.db.pages.rows,
        ShowsLast crates ((written crates limit after first).map Prod.snd)
          first.service.storage.db later.service.storage.db row := by
  have begins := run_replays (begin_replays startUrl seed clock db userAgent) ran
  have replays := run_replays begins.afresh goesOn
  exact ⟨replay_livesOn replays.replayed, replay_showsLast replays.replayed⟩

end Deployments

/-! ### The sample deployment -/

/-- A database that knows both sites. -/
def CrawlerDb.sampleSites : CrawlerDb := CrawlerDb.sample.upsertDomain ⟨"b.example", none, 0⟩

/-- The page of the second site, which the last action of the run saves. -/
theorem sampleStored_written :
    (written sampleStreamCrates none sampleStored (sampleOutset CrawlerDb.sampleSites)).map
      Prod.snd = [.parsedPage (samplePage .other "")] := by
  decide +kernel

/-- The table is the replay of the page that was written. -/
theorem database_replays_sample : ∃ deployment : Deployment SampleUrl 1,
    Transition.run (deploymentStep sampleStreamCrates none) sampleStored
      (sampleOutset CrawlerDb.sampleSites) = some deployment ∧
    replay sampleStreamCrates [.parsedPage (samplePage .other "")] CrawlerDb.sampleSites =
      some deployment.service.storage.db := by
  obtain ⟨deployment, ran⟩ : ∃ deployment : Deployment SampleUrl 1,
      Transition.run (deploymentStep sampleStreamCrates none) sampleStored
        (sampleOutset CrawlerDb.sampleSites) = some deployment := ⟨_, rfl⟩
  have replayed := (database_replays ran).2.2
  refine ⟨deployment, ran, ?_⟩
  rw [← sampleStored_written]
  exact replayed

/-- The row of the page is that of the event that was written between the two states. -/
theorem rows_live_on_sample : ∃ first later : Deployment SampleUrl 1,
    Transition.run (deploymentStep sampleStreamCrates none) sampleMoved
      (sampleOutset CrawlerDb.sampleSites) = some first ∧
    Transition.run (deploymentStep sampleStreamCrates none)
      [.crawl (.service (.process DbFaults.none))] first = some later ∧
    later.service.storage.db.pages.rows.map PageRow.url = ["https://b.example/"] ∧
    first.service.storage.db.LivesOnIn later.service.storage.db ∧
    ∀ row ∈ later.service.storage.db.pages.rows,
      ShowsLast sampleStreamCrates
        ((written sampleStreamCrates none [.crawl (.service (.process DbFaults.none))] first).map
          Prod.snd) first.service.storage.db later.service.storage.db row := by
  obtain ⟨later, ran⟩ : ∃ later : Deployment SampleUrl 1,
      Transition.run (deploymentStep sampleStreamCrates none) sampleStored
        (sampleOutset CrawlerDb.sampleSites) = some later := ⟨_, rfl⟩
  have stored : (Transition.run (deploymentStep sampleStreamCrates none) sampleStored
      (sampleOutset CrawlerDb.sampleSites)).map
        (fun deployment => deployment.service.storage.db.pages.rows.map PageRow.url) =
      some ["https://b.example/"] := by decide +kernel
  rw [ran, Option.map_some, Option.some.injEq] at stored
  rw [sampleStored, Transition.run_append] at ran
  obtain ⟨first, begins, ends⟩ := Option.bind_eq_some_iff.mp ran
  exact ⟨first, later, begins, ends, stored, rows_live_on begins ends⟩

end PoliteCrawler
