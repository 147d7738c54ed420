/-
This file says when the consumer can save every event that is still to come.

The entries to come are the rest of the batch in the consumer's hands and what
reads to come deliver. A page event needs the domain of its URL: the row is
there and reads back, or a domain event before it writes it. So the entries to
come are a queue whose keys are domains. Processing them in order keeps it
supplied, and so does everything that neither adds an entry nor passes one over.
-/

import PoliteCrawler.AtLeastOnce
import PoliteCrawler.CacheTransparency
import PoliteCrawler.SeenUrlsFrame
import PoliteCrawler.Supply

namespace PoliteCrawler

open CrawlerDb Supply

variable {Url : Type} (crates : Crates Url)

/-! ### Events and domains -/

/-- The domain of the page's URL. -/
def hostOfPage (page : ParsedPageSaveData) : Option String :=
  (crates.url.parse page.url).toOption.bind crates.url.domain

def eventOf (entry : StreamEntry) : Option ParsedData := entry.bind crates.fromJson

/-- The domains whose rows read back. -/
def readable (db : CrawlerDb) : Set String :=
  {domain | ∃ row entry, db.domains.find? domain = some row ∧
    cachedRow crates defaultAgentName row = .ok entry}

/-- The domains an event needs to be saved. -/
def neededBy : ParsedData → Set String
  | .parsedDomain _ => ∅
  | .parsedPage page => {host | hostOfPage crates page = some host}

/-- The domains an event makes known. -/
def declaredBy : ParsedData → Set String
  | .parsedDomain data => {data.domainString}
  | .parsedPage _ => ∅

def needs (entry : StreamEntry) : Set String :=
  {domain | ∃ event, eventOf crates entry = some event ∧ domain ∈ neededBy crates event}

def provides (entry : StreamEntry) : Set String :=
  {domain | ∃ event, eventOf crates entry = some event ∧ domain ∈ declaredBy event}

/-- The event can be saved once the domains it needs are known. -/
def Sound : ParsedData → Prop
  | .parsedDomain data => Convertible crates defaultAgentName data
  | .parsedPage page => ∃ host, hostOfPage crates page = some host

def SoundEntry (entry : StreamEntry) : Prop :=
  ∃ event, eventOf crates entry = some event ∧ Sound crates event

/-- The entries that are still to be processed. -/
def StorageService.pending (service : StorageService Url) : List StreamEntry :=
  service.consumer.batch.map Prod.fst ++ service.log.undelivered

/-- Every entry to come can be saved when it is its turn. -/
structure StorageService.Accepting (service : StorageService Url) : Prop where
  agent : service.storage.agentName = defaultAgentName
  agrees : CacheAgrees crates service.storage
  sound : ∀ entry ∈ service.pending, SoundEntry crates entry
  supplied : Supplied (needs crates) (provides crates) (readable crates service.storage.db)
    service.pending

/-! ### Saving an event -/

section Saves

variable {crates} {storage : CrawlerStorage Url} {faults : DbFaults}

theorem hostOfPage_eq_some {page : ParsedPageSaveData} {host : String}
    (hosted : hostOfPage crates page = some host) :
    ∃ url, crates.url.parse page.url = .ok url ∧ crates.url.domain url = some host := by
  unfold hostOfPage at hosted
  cases parsed : crates.url.parse page.url with
  | error reason =>
    rw [parsed] at hosted
    cases hosted
  | ok url =>
    rw [parsed] at hosted
    exact ⟨url, rfl, hosted⟩

/-- A domain whose row reads back is found, unless every attempt to read fails. -/
theorem cachedOrStored_of_readable {domain : String} (agent : storage.agentName = defaultAgentName)
    (agrees : CacheAgrees crates storage) (reads : allFail faults.read = false)
    (known : domain ∈ readable crates storage.db) :
    ∃ entry, (storage.cachedOrStored crates faults domain).1 = .ok (some entry) := by
  obtain ⟨row, entry, found, built⟩ := known
  have queried : queryWithRetry faults.read (.ok (storage.db.domains.find? domain)) =
      .ok (some row) := by
    rw [queryWithRetry_value, reads, found]
    rfl
  refine ⟨entry, ?_⟩
  rw [agrees.cachedOrStored reads, getCacheInfoAboutDomain, queried, agent]
  simp only [built]
  rfl

/-- A page whose domain is known is saved under the id of its domain. -/
theorem identified_of_readable {page : ParsedPageSaveData} {host : String}
    (agent : storage.agentName = defaultAgentName) (agrees : CacheAgrees crates storage)
    (reads : allFail faults.read = false) (hosted : hostOfPage crates page = some host)
    (known : host ∈ readable crates storage.db) :
    ∃ id, Identified crates storage faults page id := by
  obtain ⟨url, parsed, domain⟩ := hostOfPage_eq_some hosted
  obtain ⟨entry, read⟩ := cachedOrStored_of_readable agent agrees reads known
  exact ⟨entry.id, url, host, parsed, domain,
    (CrawlerStorage.getDomainId_ok_iff crates).mpr ⟨entry, read, rfl⟩⟩

/-- An event that is sound, and whose domains are known, can be saved. -/
theorem savable_of_readable {event : ParsedData} (agent : storage.agentName = defaultAgentName)
    (agrees : CacheAgrees crates storage) (reads : allFail faults.read = false)
    (writes : allFail faults.write = false) (sound : Sound crates event)
    (known : neededBy crates event ⊆ readable crates storage.db) :
    Savable crates storage faults event := by
  cases event with
  | parsedDomain data => exact ⟨writes, agent ▸ sound⟩
  | parsedPage page =>
    obtain ⟨host, hosted⟩ := sound
    exact ⟨identified_of_readable agent agrees reads hosted (known hosted), Or.inr writes⟩

/-- A domain event that converts makes its domain known and loses none. -/
theorem readable_upsertDomain {db : CrawlerDb} {data : DomainDataSaveData}
    (convertible : Convertible crates defaultAgentName data) :
    readable crates db ∪ {data.domainString} ⊆ readable crates (db.upsertDomain data) := by
  intro domain member
  by_cases same : domain = data.domainString
  · obtain ⟨entry, built⟩ := (CachedData.new_ok_iff crates).mpr convertible
    rw [same]
    exact ⟨_, entry, find?_upsertDomain_self db data, cachedRow_domainRow crates db data _ _ built⟩
  · obtain ⟨row, entry, found, built⟩ := member.resolve_right same
    exact ⟨row, entry, (find?_upsertDomain_of_ne db data same).trans found, built⟩

/-- A save of a sound event makes known what the event declares. -/
theorem Saved.readable {after : CrawlerStorage Url} {event : ParsedData} {answer : List String}
    (saved : Saved crates storage faults event (.ok answer) after) (sound : Sound crates event) :
    readable crates storage.db ∪ declaredBy event ⊆ readable crates after.db := by
  cases saved with
  | domainSaved _ _ => exact readable_upsertDomain sound
  | _ => exact Set.union_subset (fun _ known => known) (Set.empty_subset _)

end Saves

/-! ### Steps -/

section Steps

variable {crates} {service next : StorageService Url}

theorem StorageService.pending_congr (batch : next.consumer.batch = service.consumer.batch)
    (undelivered : next.log.undelivered = service.log.undelivered) :
    next.pending = service.pending := by
  rw [pending, pending, batch, undelivered]

/-- The action neither publishes an entry nor processes one, and passes none over. -/
def StorageService.keepsPending (service : StorageService Url) : ServiceAction Url → Bool
  | .publish _ | .process _ => false
  | .read call => call ≠ .lost
  | .kill => service.consumer.batch.isEmpty
  | _ => true

/-- The other steps of the service leave the entries to come as they are. -/
theorem ServiceMoved.pending_eq {action : ServiceAction Url}
    (moved : ServiceMoved crates service action next)
    (keeps : service.keepsPending action = true) : next.pending = service.pending := by
  cases moved with
  | published | readLost | processed | dropped => cases keeps
  | started _ down => exact StorageService.pending_congr (by rw [down]; rfl) rfl
  | groupCreated starting performed idle =>
    refine StorageService.pending_congr ?_ service.log.undelivered_createGroup
    rw [starting]
    exact (Consumer.idle_of_inHand idle).1
  | groupFailed starting => exact StorageService.pending_congr (by rw [starting]; rfl) rfl
  | readAnswered reading =>
    rw [StorageService.pending, StorageService.pending, reading, Consumer.batch_next,
      service.log.undelivered_deliver]
    rfl
  | readFailed | looked => rfl
  | offered offering _ goesOn =>
    refine StorageService.pending_congr ?_ rfl
    rw [offering]
    rcases goesOn with rfl | ⟨_, rfl⟩ <;> rfl
  | pushed pushing _ goesOn | pushFailed pushing goesOn =>
    refine StorageService.pending_congr ?_ rfl
    rw [pushing]
    rcases goesOn with rfl | rfl <;> rfl
  | acked acking performed =>
    refine StorageService.pending_congr ?_ (service.log.undelivered_acknowledge _)
    rw [acking]
    exact Consumer.batch_next _
  | ackFailed acking =>
    refine StorageService.pending_congr ?_ rfl
    rw [acking]
    exact Consumer.batch_next _
  | shutDown reading => exact StorageService.pending_congr (by rw [reading]; rfl) rfl
  | killed =>
    have empty : service.consumer.batch = [] := List.isEmpty_iff.mp keeps
    exact StorageService.pending_congr (by rw [empty]; rfl) rfl

/-- Nothing is added to the entries to come and nothing taken, and no domain is lost. -/
theorem StorageService.Accepting.goesOn (accepting : service.Accepting crates)
    (agent : next.storage.agentName = service.storage.agentName)
    (agrees : CacheAgrees crates next.storage)
    (known : readable crates service.storage.db ⊆ readable crates next.storage.db)
    (pending : next.pending = service.pending) : next.Accepting crates where
  agent := agent.trans accepting.agent
  agrees := agrees
  sound := by
    rw [pending]
    exact accepting.sound
  supplied := by
    rw [pending]
    exact accepting.supplied.mono known

/-- The storage is as it was. -/
theorem StorageService.Accepting.sameStorage (accepting : service.Accepting crates)
    (storage : next.storage = service.storage) (pending : next.pending = service.pending) :
    next.Accepting crates ∧
      readable crates service.storage.db ⊆ readable crates next.storage.db := by
  have known : readable crates service.storage.db ⊆ readable crates next.storage.db := by
    rw [storage]
  refine ⟨accepting.goesOn (congrArg _ storage) ?_ known pending, known⟩
  rw [storage]
  exact accepting.agrees

theorem CacheAgrees.afterLookup {storage : CrawlerStorage Url} (agrees : CacheAgrees crates storage)
    (request : Lookup Url) : CacheAgrees crates (storage.afterLookup crates request) := by
  obtain ⟨_, _, refreshed, state⟩ := afterLookup_state crates storage request
  rw [state]
  exact CacheFits.refreshed crates agrees (fun _ _ built => built) refreshed

/-- A lookup changes the cache and the seen URLs only. -/
theorem StorageService.Accepting.looked (accepting : service.Accepting crates)
    (request : Lookup Url) (storage : next.storage = service.storage.afterLookup crates request)
    (pending : next.pending = service.pending) :
    next.Accepting crates ∧
      readable crates service.storage.db ⊆ readable crates next.storage.db := by
  obtain ⟨_, _, _, state⟩ := afterLookup_state crates service.storage request
  have known : readable crates service.storage.db ⊆ readable crates next.storage.db := by
    rw [storage, state]
  refine ⟨accepting.goesOn ?_ ?_ known pending, known⟩
  · rw [storage, state]
  · rw [storage]
    exact accepting.agrees.afterLookup request

/-- An event that is added has to be sound, and to find its domains. -/
theorem StorageService.Accepting.append (accepting : service.Accepting crates) {entry : StreamEntry}
    (sound : SoundEntry crates entry)
    (found : needs crates entry ⊆
      readable crates service.storage.db ∪ provided (provides crates) service.pending) :
    StorageService.Accepting crates { service with log := service.log.append entry } := by
  rcases service.log.undelivered_append entry with last | never
  · have pending : StorageService.pending { service with log := service.log.append entry } =
        service.pending ++ [entry] := by
      rw [StorageService.pending, last, ← List.append_assoc]
      rfl
    refine ⟨accepting.agent, accepting.agrees, ?_, ?_⟩
    · rw [pending]
      intro other member
      rcases List.mem_append.mp member with old | new
      · exact accepting.sound other old
      · rw [List.mem_singleton.mp new]
        exact sound
    · rw [pending]
      exact accepting.supplied.concat found
  · exact accepting.goesOn rfl accepting.agrees (fun _ known => known)
      (StorageService.pending_congr rfl never)

/-- An entry that is added is to come, or will never be read. -/
theorem StorageService.mem_pending_append (service : StorageService Url)
    {entry other : StreamEntry}
    (member : other ∈ StorageService.pending { service with log := service.log.append entry }) :
    other ∈ service.pending ∨ other = entry := by
  rcases List.mem_append.mp member with batch | undelivered
  · exact Or.inl (List.mem_append_left _ batch)
  · rcases service.log.undelivered_append entry with last | never
    · have held : other ∈ service.log.undelivered ++ [entry] := last ▸ undelivered
      rcases List.mem_append.mp held with before | added
      · exact Or.inl (List.mem_append_right _ before)
      · exact Or.inr (List.mem_singleton.mp added)
    · exact Or.inl (List.mem_append_right _ (never ▸ undelivered))

/-- The entry the consumer comes to. -/
theorem StorageService.pending_of_processing {entry : StreamEntry} {id : Nat}
    {batch : List (StreamEntry × Nat)}
    (processing : service.consumer = .processing ((entry, id) :: batch)) :
    service.pending = entry :: (batch.map Prod.fst ++ service.log.undelivered) := by
  rw [StorageService.pending, processing]
  rfl

/-- Only what is published is added to the entries to come. -/
theorem ServiceMoved.pending_subset {action : ServiceAction Url}
    (moved : ServiceMoved crates service action next)
    (unpublished : ∀ entry, action ≠ .publish entry) : next.pending ⊆ service.pending := by
  cases keeps : service.keepsPending action with
  | true =>
    rw [moved.pending_eq keeps]
    exact List.Subset.refl _
  | false =>
    cases moved with
    | published entry => exact absurd rfl (unpublished entry)
    | readLost reading =>
      have delivered : (service.log.deliver readCount).undelivered ⊆ service.log.undelivered := by
        rw [← service.log.undelivered_deliver readCount]
        exact List.subset_append_right _ _
      refine List.append_subset.mpr ⟨List.subset_append_left _ _, ?_⟩
      exact List.Subset.trans delivered (List.subset_append_right _ _)
    | processed processing _ =>
      rw [StorageService.pending_of_processing processing]
      exact List.subset_cons_self _ _
    | dropped processing _ goesOn =>
      rw [StorageService.pending_of_processing processing]
      rcases goesOn with rfl | rfl
      · exact List.Subset.trans (List.subset_append_right _ _) (List.subset_cons_self _ _)
      · rw [StorageService.pending, Consumer.batch_next]
        exact List.subset_cons_self _ _
    | killed => exact List.subset_append_right _ _
    | _ => cases keeps

/-- The consumer comes to an event that is saved, with everything it needs known. -/
theorem StorageService.Accepting.accepts (accepting : service.Accepting crates)
    {faults : DbFaults} {entry : StreamEntry} {id : Nat} {batch : List (StreamEntry × Nat)}
    (processing : service.consumer = .processing ((entry, id) :: batch))
    (reads : allFail faults.read = false) (writes : allFail faults.write = false) :
    ∃ event answer, eventOf crates entry = some event ∧ Sound crates event ∧
      neededBy crates event ⊆ readable crates service.storage.db ∧
      (processStreamEntry crates service.storage faults entry).1 = .ok answer := by
  have pending := StorageService.pending_of_processing processing
  obtain ⟨event, decoded, sound⟩ := accepting.sound entry (pending ▸ List.mem_cons_self)
  have supplied := accepting.supplied
  rw [pending] at supplied
  have known : neededBy crates event ⊆ readable crates service.storage.db :=
    fun domain needed => supplied.1 ⟨event, decoded, needed⟩
  have savable := savable_of_readable accepting.agent accepting.agrees reads writes sound known
  obtain ⟨answer, saved⟩ := (processStreamEntry_ok_iff crates
    (CacheAgrees.identifies crates accepting.agrees) faults entry).mpr fun payload same => by
      subst same
      exact ⟨event, decoded, savable⟩
  exact ⟨event, answer, decoded, sound, known, saved⟩

/-- An event that decodes is saved as such. -/
theorem processStreamEntry_of_eventOf {entry : StreamEntry} {event : ParsedData}
    (decoded : eventOf crates entry = some event) (storage : CrawlerStorage Url)
    (faults : DbFaults) : processStreamEntry crates storage faults entry =
      storage.saveParsedData crates faults event := by
  obtain ⟨payload, rfl, decodes⟩ := Option.bind_eq_some_iff.mp decoded
  simp only [processStreamEntry, decodes]

/-- An entry without an event changes nothing, and does not panic. -/
theorem processStreamEntry_of_eventOf_none {entry : StreamEntry}
    (undecoded : eventOf crates entry = none) (storage : CrawlerStorage Url) (faults : DbFaults) :
    (processStreamEntry crates storage faults entry).2 = storage ∧
      (processStreamEntry crates storage faults entry).1 ≠ .error .panicked := by
  cases entry with
  | none => exact ⟨rfl, fun panics => by cases panics⟩
  | some payload =>
    have unread : crates.fromJson payload = none := undecoded
    simp only [processStreamEntry, unread]
    exact ⟨trivial, fun panics => by cases panics⟩

/-- Once the front event is saved, the rest is supplied from what it has made known. -/
theorem StorageService.Accepting.processed (accepting : service.Accepting crates)
    {faults : DbFaults} {entry : StreamEntry} {id : Nat} {batch : List (StreamEntry × Nat)}
    {answer : List String} {consumer : Consumer}
    (processing : service.consumer = .processing ((entry, id) :: batch))
    (succeeded : (processStreamEntry crates service.storage faults entry).1 = .ok answer)
    (left : consumer.batch = batch) :
    StorageService.Accepting crates { service with
        storage := (processStreamEntry crates service.storage faults entry).2
        consumer } ∧
      readable crates service.storage.db ⊆
        readable crates (processStreamEntry crates service.storage faults entry).2.db := by
  have pending := StorageService.pending_of_processing processing
  obtain ⟨event, decoded, sound⟩ := accepting.sound entry (pending ▸ List.mem_cons_self)
  have supplied := accepting.supplied
  have sounds := accepting.sound
  rw [pending] at supplied sounds
  have saved := saveParsedData_saved crates service.storage faults event
  rw [← processStreamEntry_of_eventOf decoded] at saved
  have converts : ∀ data, event = .parsedDomain data →
      Convertible crates service.storage.agentName data := by
    rintro data rfl
    exact accepting.agent ▸ sound
  have agent := saved.agentName
  have agrees := saved.agrees accepting.agrees converts
  rw [succeeded] at saved
  have gained := saved.readable sound
  have rest : StorageService.pending { service with
      storage := (processStreamEntry crates service.storage faults entry).2, consumer } =
        batch.map Prod.fst ++ service.log.undelivered := by
    rw [StorageService.pending, left]
  refine ⟨⟨agent.trans accepting.agent, agrees, ?_, ?_⟩, Set.subset_union_left.trans gained⟩
  · rw [rest]
    exact fun other member => sounds other (List.mem_cons_of_mem _ member)
  · rw [rest]
    refine supplied.take ((Set.union_subset_union_right _ ?_).trans gained)
    rintro domain ⟨other, same, declared⟩
    obtain rfl := Option.some.inj (decoded.symm.trans same)
    exact declared

/-- The step passes no entry over: nobody but the workers publishes, no reply to a read is lost,
the database calls of a save do not fail in all their attempts, and the service ends with empty
hands. -/
def passesNone (service : StorageService Url) : ServiceAction Url → Bool
  | .publish _ => false
  | .read call => call ≠ .lost
  | .process faults => !allFail faults.read && !allFail faults.write
  | .kill => service.consumer.batch.isEmpty
  | _ => true

/-- A step of the service that passes no entry over keeps the entries to come supplied, and keeps
the domains. -/
theorem ServiceMoved.accepting {action : ServiceAction Url}
    (moved : ServiceMoved crates service action next) (accepting : service.Accepting crates)
    (passes : passesNone service action = true) :
    next.Accepting crates ∧
      readable crates service.storage.db ⊆ readable crates next.storage.db := by
  have fixed := moved.pending_eq
  cases moved with
  | published entry => cases passes
  | started faults down =>
    refine ⟨accepting.goesOn rfl ?_ (fun _ known => known) (fixed rfl), fun _ known => known⟩
    exact cacheFits_started _ _ _
  | readLost reading => cases passes
  | processed processing succeeded => exact accepting.processed processing succeeded rfl
  | dropped processing failed goesOn =>
    obtain ⟨reads, writes⟩ := Bool.and_eq_true_iff.mp passes
    obtain ⟨_, _, _, _, _, succeeded⟩ := accepting.accepts processing
      (by simpa using reads) (by simpa using writes)
    cases failed.symm.trans succeeded
  | offered offering noted goesOn =>
    rcases noted with rfl | ⟨url, rfl⟩
    · exact accepting.sameStorage rfl (fixed rfl)
    · exact accepting.looked (.insertUrl url) rfl (fixed rfl)
  | killed => exact accepting.sameStorage rfl (fixed passes)
  | looked request => exact accepting.looked request rfl rfl
  | _ => exact accepting.sameStorage rfl (fixed rfl)

end Steps

end PoliteCrawler
