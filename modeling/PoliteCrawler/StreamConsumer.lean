/-
This file models the storage service around its state: the Redis stream with its
consumer group, the consumer loop, and the task queue the loop pushes sitemaps
to.

Every atomic step of the loop is an action: one Redis call, one event processed,
one sitemap looked at. A Redis call can be answered, fail without effect, or
take effect with its reply lost; the last happens on a connection error, on a
response timeout and when the shutdown signal wins the `select!` against an
`xread` that Redis has already answered. A kill ends the process at any point
and leaves the database, the stream and the queue.
-/

import PoliteCrawler.ConsumerGroup
import PoliteCrawler.StorageRuns

namespace PoliteCrawler

/-! ### The task queue -/

/-- How a Redis call ends. -/
inductive Call
  | answered
  | lost
  | failed
  deriving DecidableEq, Repr

/-- The task queue, a Redis list. `pushed` records everything that was ever pushed. -/
structure TaskQueue where
  waiting : List String
  pushed : List String

namespace TaskQueue

/-- `RPUSH` -/
def pushBulk (queue : TaskQueue) (urls : List String) : TaskQueue :=
  ⟨queue.waiting ++ urls, queue.pushed ++ urls⟩

def push (queue : TaskQueue) (url : String) : TaskQueue := queue.pushBulk [url]

/-- `BLPOP`: the front entry; `none` on an empty queue. -/
def popFront (queue : TaskQueue) : Option (String × TaskQueue) :=
  match queue.waiting with
  | [] => none
  | url :: rest => some (url, ⟨rest, queue.pushed⟩)

end TaskQueue

/-! ### The consumer -/

/-- An entry of the stream: its `payload` field, when it has one. -/
abbrev StreamEntry := Option String

/-- Where the consumer loop stands. -/
inductive Consumer
  | down
  | starting
  | reading
  | processing (batch : List (StreamEntry × Nat))
  /-- The entry is processed; its sitemaps are left, and after them its acknowledgement. -/
  | offering (id : Nat) (sitemaps : List String) (batch : List (StreamEntry × Nat))
  | pushing (id : Nat) (sitemap : String) (attempt : Nat) (sitemaps : List String)
      (batch : List (StreamEntry × Nat))
  | stopped

namespace Consumer

/-- The loop goes on with the batch, or reads again after it. -/
def next : List (StreamEntry × Nat) → Consumer
  | [] => .reading
  | batch => .processing batch

/-- The entries left to process. -/
def batch : Consumer → List (StreamEntry × Nat)
  | .processing batch | .offering _ _ batch | .pushing _ _ _ _ batch => batch
  | _ => []

/-- The entry that is processed and not yet acknowledged. -/
def acking : Consumer → Option Nat
  | .offering id _ _ | .pushing id _ _ _ _ => some id
  | _ => none

/-- The numbers of the entries the consumer is working through. -/
def inHand (consumer : Consumer) : List Nat :=
  consumer.acking.toList ++ consumer.batch.map Prod.snd

section Parts

variable (id attempt : Nat) (url : String) (sitemaps : List String)
  (left : List (StreamEntry × Nat))

@[simp] theorem batch_processing : (processing left).batch = left := rfl

@[simp] theorem batch_offering : (offering id sitemaps left).batch = left := rfl

@[simp] theorem batch_pushing : (pushing id url attempt sitemaps left).batch = left := rfl

@[simp] theorem acking_offering : (offering id sitemaps left).acking = some id := rfl

@[simp] theorem acking_pushing : (pushing id url attempt sitemaps left).acking = some id := rfl

end Parts

/-- A consumer with empty hands has neither a batch nor an entry to acknowledge. -/
theorem idle_of_inHand {consumer : Consumer} (idle : consumer.inHand = []) :
    consumer.batch = [] ∧ consumer.acking = none := by
  obtain ⟨acking, batch⟩ := List.append_eq_nil_iff.mp idle
  exact ⟨List.map_eq_nil_iff.mp batch, Option.toList_eq_nil_iff.mp acking⟩

/-- A consumer with a batch and nothing to acknowledge is about to process it. -/
theorem eq_processing {consumer : Consumer} {left : StreamEntry × Nat}
    {batch : List (StreamEntry × Nat)} (holds : consumer.batch = left :: batch)
    (acking : consumer.acking = none) : consumer = .processing (left :: batch) := by
  cases consumer with
  | processing other => exact congrArg _ holds
  | offering _ _ _ | pushing _ _ _ _ _ => cases acking
  | _ => cases holds

@[simp] theorem batch_next (left : List (StreamEntry × Nat)) : (next left).batch = left := by
  cases left <;> rfl

theorem next_ne_down (left : List (StreamEntry × Nat)) : next left ≠ .down := by
  cases left <;> intro down <;> cases down

@[simp] theorem acking_next (left : List (StreamEntry × Nat)) : (next left).acking = none := by
  cases left <;> rfl

@[simp] theorem inHand_next (left : List (StreamEntry × Nat)) :
    (next left).inHand = left.map Prod.snd := by
  rw [inHand, batch_next, acking_next]
  rfl

end Consumer

/-- The storage service with the Redis data it shares with the workers. While the consumer is
`down` the process does not run, and of `storage` only the database exists. -/
structure StorageService (Url : Type) where
  storage : CrawlerStorage Url
  log : GroupedLog StreamEntry
  queue : TaskQueue
  consumer : Consumer

/-- Before the first start: no stream, no tasks, some database. -/
def StorageService.initial {Url : Type} (db : CrawlerDb) (userAgent : String) :
    StorageService Url where
  storage := CrawlerStorage.started db.simhashes db userAgent
  log := GroupedLog.empty
  queue := ⟨[], []⟩
  consumer := .down

section Steps

variable {Url : Type} (crates : Crates Url)

def processStreamEntry (storage : CrawlerStorage Url) (faults : DbFaults) (entry : StreamEntry) :
    Outcome (List String) × CrawlerStorage Url :=
  match entry with
  | none => (.ok [], storage)
  | some payload =>
    match crates.fromJson payload with
    | none => (.error (.error .serdeError), storage)
    | some data => storage.saveParsedData crates faults data

/-- What happens around and in the storage service. -/
inductive ServiceAction (Url : Type)
  | publish (entry : StreamEntry)
  | start (faults : DbFaults)
  | createGroup (call : Call)
  | read (call : Call)
  | process (faults : DbFaults)
  | offer
  | pushSitemap (call : Call)
  | ack (call : Call)
  | shutdown
  | kill
  | lookup (request : Lookup Url)

/-- `XREADGROUP .. COUNT 10 .. >` -/
def readCount : Nat := 10

def pushAttempts : Nat := 3

namespace StorageService

/-- The process comes up on the database. -/
def start (faults : DbFaults) (service : StorageService Url) : Option (StorageService Url) :=
  match service.consumer with
  | .down =>
    match CrawlerStorage.new true service.storage.db faults service.storage.agentName with
    | .ok storage => some { service with storage, consumer := .starting }
    | .error _ => none
  | _ => none

/-- `XGROUP CREATE .. $ MKSTREAM`. An existing group is no failure. -/
def createGroup (call : Call) (service : StorageService Url) : Option (StorageService Url) :=
  match service.consumer, call with
  | .starting, .answered =>
    some { service with log := service.log.createGroup, consumer := .reading }
  | .starting, .lost => some { service with log := service.log.createGroup, consumer := .stopped }
  | .starting, .failed => some { service with consumer := .stopped }
  | _, _ => none

def read (call : Call) (service : StorageService Url) : Option (StorageService Url) :=
  match service.consumer, call with
  | .reading, .answered => some { service with
      log := service.log.deliver readCount
      consumer := Consumer.next (service.log.fresh readCount) }
  | .reading, .lost => some { service with log := service.log.deliver readCount }
  | .reading, .failed => some service
  | _, _ => none

/-- An error leaves the entry unacknowledged and goes on; a panic ends the consumer task. -/
def process (faults : DbFaults) (service : StorageService Url) : Option (StorageService Url) :=
  match service.consumer with
  | .processing ((entry, id) :: batch) =>
    let processed := processStreamEntry crates service.storage faults entry
    some { service with
      storage := processed.2
      consumer :=
        match processed.1 with
        | .ok sitemaps => .offering id sitemaps batch
        | .error (.error _) => Consumer.next batch
        | .error .panicked => .stopped }
  | _ => none

/-- The consumer looks at the next sitemap, and pushes it when it parses and is new. -/
def offer (service : StorageService Url) : Option (StorageService Url) :=
  match service.consumer with
  | .offering id (sitemap :: sitemaps) batch =>
    match crates.url.parse sitemap with
    | .error _ => some { service with consumer := .offering id sitemaps batch }
    | .ok url =>
      let inserted := service.storage.insertUrlInSeenUrls crates url
      some { service with
        storage := inserted.2
        consumer :=
          if inserted.1 then .offering id sitemaps batch
          else .pushing id (crates.url.asStr url) 1 sitemaps batch }
  | _ => none

/-- After the third failed attempt the sitemap is dropped. -/
def pushSitemap (call : Call) (service : StorageService Url) : Option (StorageService Url) :=
  match service.consumer with
  | .pushing id sitemap attempt sitemaps batch =>
    let retried : Consumer :=
      if attempt = pushAttempts then .offering id sitemaps batch
      else .pushing id sitemap (attempt + 1) sitemaps batch
    match call with
    | .answered => some { service with
        queue := service.queue.push sitemap
        consumer := .offering id sitemaps batch }
    | .lost => some { service with queue := service.queue.push sitemap, consumer := retried }
    | .failed => some { service with consumer := retried }
  | _ => none

/-- `XACK`; its result is not looked at. -/
def ack (call : Call) (service : StorageService Url) : Option (StorageService Url) :=
  match service.consumer with
  | .offering id [] batch => some { service with
      log := if call = .failed then service.log else service.log.acknowledge id
      consumer := Consumer.next batch }
  | _ => none

/-- The signal is taken where the loop waits for the stream. -/
def shutdown (service : StorageService Url) : Option (StorageService Url) :=
  match service.consumer with
  | .reading => some { service with consumer := .stopped }
  | _ => none

def lookup (request : Lookup Url) (service : StorageService Url) : Option (StorageService Url) :=
  match service.consumer with
  | .down => none
  | _ => some { service with storage := service.storage.afterLookup crates request }

end StorageService

/-- One atomic step; `none` when the action is not possible. -/
def serviceStep : ServiceAction Url → StorageService Url → Option (StorageService Url)
  | .publish entry, service => some { service with log := service.log.append entry }
  | .start faults, service => service.start faults
  | .createGroup call, service => service.createGroup call
  | .read call, service => service.read call
  | .process faults, service => service.process crates faults
  | .offer, service => service.offer crates
  | .pushSitemap call, service => service.pushSitemap call
  | .ack call, service => service.ack call
  | .shutdown, service => service.shutdown
  | .kill, service => some { service with consumer := .down }
  | .lookup request, service => service.lookup crates request

/-! ### What a step can do -/

/-- The steps of the service, with the state each leaves. -/
inductive ServiceMoved (service : StorageService Url) :
    ServiceAction Url → StorageService Url → Prop
  | published (entry : StreamEntry) :
      ServiceMoved service (.publish entry) { service with log := service.log.append entry }
  | started (faults : DbFaults) (down : service.consumer = .down) :
      ServiceMoved service (.start faults)
        { service with
          storage := CrawlerStorage.started service.storage.db.simhashes service.storage.db
            service.storage.agentName
          consumer := .starting }
  | groupCreated {call : Call} {consumer : Consumer} (starting : service.consumer = .starting)
      (performed : call ≠ .failed) (idle : consumer.inHand = []) :
      ServiceMoved service (.createGroup call)
        { service with log := service.log.createGroup, consumer }
  | groupFailed (starting : service.consumer = .starting) :
      ServiceMoved service (.createGroup .failed) { service with consumer := .stopped }
  | readAnswered (reading : service.consumer = .reading) :
      ServiceMoved service (.read .answered)
        { service with
          log := service.log.deliver readCount
          consumer := Consumer.next (service.log.fresh readCount) }
  | readLost (reading : service.consumer = .reading) :
      ServiceMoved service (.read .lost) { service with log := service.log.deliver readCount }
  | readFailed : ServiceMoved service (.read .failed) service
  | processed {faults : DbFaults} {entry : StreamEntry} {id : Nat} {sitemaps : List String}
      {batch : List (StreamEntry × Nat)}
      (processing : service.consumer = .processing ((entry, id) :: batch))
      (succeeded : (processStreamEntry crates service.storage faults entry).1 = .ok sitemaps) :
      ServiceMoved service (.process faults)
        { service with
          storage := (processStreamEntry crates service.storage faults entry).2
          consumer := .offering id sitemaps batch }
  | dropped {faults : DbFaults} {entry : StreamEntry} {id : Nat} {abort : Abort}
      {consumer : Consumer} {batch : List (StreamEntry × Nat)}
      (processing : service.consumer = .processing ((entry, id) :: batch))
      (failed : (processStreamEntry crates service.storage faults entry).1 = .error abort)
      (goesOn : consumer = .stopped ∨ consumer = Consumer.next batch) :
      ServiceMoved service (.process faults)
        { service with
          storage := (processStreamEntry crates service.storage faults entry).2
          consumer }
  | offered {id : Nat} {sitemap : String} {sitemaps : List String} {storage : CrawlerStorage Url}
      {consumer : Consumer} {batch : List (StreamEntry × Nat)}
      (offering : service.consumer = .offering id (sitemap :: sitemaps) batch)
      (noted : storage = service.storage ∨
        ∃ url, storage = service.storage.afterLookup crates (.insertUrl url))
      (goesOn : consumer = .offering id sitemaps batch ∨
        ∃ url, consumer = .pushing id url 1 sitemaps batch) :
      ServiceMoved service .offer
        { service with storage, consumer }
  | pushed {call : Call} {id attempt : Nat} {sitemap : String} {sitemaps : List String}
      {consumer : Consumer} {batch : List (StreamEntry × Nat)}
      (pushing : service.consumer = .pushing id sitemap attempt sitemaps batch)
      (performed : call ≠ .failed)
      (goesOn : consumer = .offering id sitemaps batch ∨
        consumer = .pushing id sitemap (attempt + 1) sitemaps batch) :
      ServiceMoved service (.pushSitemap call)
        { service with queue := service.queue.push sitemap, consumer }
  | pushFailed {id attempt : Nat} {sitemap : String} {sitemaps : List String}
      {consumer : Consumer} {batch : List (StreamEntry × Nat)}
      (pushing : service.consumer = .pushing id sitemap attempt sitemaps batch)
      (goesOn : consumer = .offering id sitemaps batch ∨
        consumer = .pushing id sitemap (attempt + 1) sitemaps batch) :
      ServiceMoved service (.pushSitemap .failed) { service with consumer }
  | acked {call : Call} {id : Nat} {batch : List (StreamEntry × Nat)}
      (acking : service.consumer = .offering id [] batch) (performed : call ≠ .failed) :
      ServiceMoved service (.ack call)
        { service with log := service.log.acknowledge id, consumer := Consumer.next batch }
  | ackFailed {id : Nat} {batch : List (StreamEntry × Nat)}
      (acking : service.consumer = .offering id [] batch) :
      ServiceMoved service (.ack .failed) { service with consumer := Consumer.next batch }
  | shutDown (reading : service.consumer = .reading) :
      ServiceMoved service .shutdown { service with consumer := .stopped }
  | killed : ServiceMoved service .kill { service with consumer := .down }
  | looked (request : Lookup Url) :
      ServiceMoved service (.lookup request)
        { service with storage := service.storage.afterLookup crates request }

theorem process_moved {service next : StorageService Url} {faults : DbFaults}
    (moved : service.process crates faults = some next) :
    ServiceMoved crates service (.process faults) next := by
  unfold StorageService.process at moved
  split at moved
  · rename_i entry id batch processing
    cases moved
    cases result : (processStreamEntry crates service.storage faults entry).1 with
    | ok sitemaps => exact .processed processing result
    | error abort =>
      cases abort with
      | error reason => exact .dropped processing result (Or.inr rfl)
      | panicked => exact .dropped processing result (Or.inl rfl)
  · cases moved

theorem offer_moved {service next : StorageService Url} (moved : service.offer crates = some next) :
    ServiceMoved crates service .offer next := by
  unfold StorageService.offer at moved
  split at moved
  · rename_i id sitemap sitemaps batch offering
    split at moved
    · cases moved
      exact .offered offering (Or.inl rfl) (Or.inl rfl)
    · rename_i url parsed
      cases moved
      refine .offered offering (Or.inr ⟨url, rfl⟩) ?_
      split
      · exact Or.inl rfl
      · exact Or.inr ⟨_, rfl⟩
  · cases moved

theorem pushSitemap_moved {service next : StorageService Url} {call : Call}
    (moved : service.pushSitemap call = some next) :
    ServiceMoved crates service (.pushSitemap call) next := by
  unfold StorageService.pushSitemap at moved
  split at moved
  · rename_i id sitemap attempt sitemaps batch pushing
    have retried : ∀ after : Consumer, after =
        (if attempt = pushAttempts then .offering id sitemaps batch
          else .pushing id sitemap (attempt + 1) sitemaps batch) →
        after = .offering id sitemaps batch ∨
          after = .pushing id sitemap (attempt + 1) sitemaps batch := by
      rintro _ rfl
      split
      · exact Or.inl rfl
      · exact Or.inr rfl
    cases call <;> cases moved
    · exact .pushed pushing (by decide) (Or.inl rfl)
    · exact .pushed pushing (by decide) (retried _ rfl)
    · exact .pushFailed pushing (retried _ rfl)
  · cases moved

/-- A sitemap that is looked at is no URL, or is inserted, and pushed when it is new. -/
theorem offer_eq_some {service next : StorageService Url}
    (moved : service.offer crates = some next) :
    ∃ id sitemap sitemaps batch, service.consumer = .offering id (sitemap :: sitemaps) batch ∧
      ((∃ reason, crates.url.parse sitemap = .error reason ∧
          next = { service with consumer := .offering id sitemaps batch }) ∨
        ∃ url, crates.url.parse sitemap = .ok url ∧
          next = { service with
            storage := (service.storage.insertUrlInSeenUrls crates url).2
            consumer :=
              if (service.storage.insertUrlInSeenUrls crates url).1 then
                .offering id sitemaps batch
              else .pushing id (crates.url.asStr url) 1 sitemaps batch }) := by
  unfold StorageService.offer at moved
  split at moved
  · rename_i id sitemap sitemaps batch offering
    refine ⟨id, sitemap, sitemaps, batch, offering, ?_⟩
    cases parsed : crates.url.parse sitemap with
    | error reason =>
      rw [parsed] at moved
      cases moved
      exact Or.inl ⟨reason, rfl, rfl⟩
    | ok url =>
      simp only [parsed] at moved
      cases moved
      exact Or.inr ⟨url, rfl, rfl⟩
  · cases moved

/-- Every step is one of those listed. -/
theorem serviceStep_moved {action : ServiceAction Url} {service next : StorageService Url}
    (moved : serviceStep crates action service = some next) :
    ServiceMoved crates service action next := by
  cases action with
  | publish entry =>
    cases moved
    exact .published entry
  | start faults =>
    simp only [serviceStep, StorageService.start] at moved
    split at moved
    · rename_i down
      split at moved
      · rename_i storage built
        cases moved
        rw [CrawlerStorage.new_ok built]
        exact .started faults down
      · cases moved
    · cases moved
  | createGroup call =>
    simp only [serviceStep, StorageService.createGroup] at moved
    split at moved <;> cases moved
    · rename_i starting
      exact .groupCreated starting (by decide) rfl
    · rename_i starting
      exact .groupCreated starting (by decide) rfl
    · rename_i starting
      exact .groupFailed starting
  | read call =>
    simp only [serviceStep, StorageService.read] at moved
    split at moved <;> cases moved
    · rename_i reading
      exact .readAnswered reading
    · rename_i reading
      exact .readLost reading
    · exact .readFailed
  | process faults => exact process_moved crates moved
  | offer => exact offer_moved crates moved
  | pushSitemap call => exact pushSitemap_moved crates moved
  | ack call =>
    simp only [serviceStep, StorageService.ack] at moved
    split at moved
    · rename_i id batch acking
      cases moved
      by_cases failed : call = .failed
      · subst failed
        exact .ackFailed acking
      · rw [if_neg failed]
        exact .acked acking failed
    · cases moved
  | shutdown =>
    simp only [serviceStep, StorageService.shutdown] at moved
    split at moved
    · rename_i reading
      cases moved
      exact .shutDown reading
    · cases moved
  | kill =>
    cases moved
    exact .killed
  | lookup request =>
    simp only [serviceStep, StorageService.lookup] at moved
    split at moved
    · cases moved
    · cases moved
      exact .looked request

theorem processStreamEntry_storage (storage : CrawlerStorage Url) (faults : DbFaults)
    (entry : StreamEntry) :
    (processStreamEntry crates storage faults entry).2 = storage ∨
      ∃ op, storageStep crates op storage =
        some (processStreamEntry crates storage faults entry).2 := by
  cases entry with
  | none => exact Or.inl rfl
  | some payload =>
    cases decoded : crates.fromJson payload with
    | none =>
      refine Or.inl ?_
      simp only [processStreamEntry, decoded]
    | some data =>
      refine Or.inr ⟨.save data faults, ?_⟩
      simp only [processStreamEntry, decoded, storageStep]

/-- A step of the service is no step of its storage, or one: the runs of the service are runs of
the storage. -/
theorem ServiceMoved.storage {service next : StorageService Url} {action : ServiceAction Url}
    (moved : ServiceMoved crates service action next) :
    next.storage = service.storage ∨
      ∃ op, storageStep crates op service.storage = some next.storage := by
  cases moved with
  | started faults _ =>
    refine Or.inr ⟨.restart DbFaults.none, ?_⟩
    simp only [storageStep, CrawlerStorage.new_faultless]
  | processed _ _ => exact processStreamEntry_storage crates service.storage _ _
  | dropped _ _ _ => exact processStreamEntry_storage crates service.storage _ _
  | looked request => exact Or.inr ⟨.lookup request, rfl⟩
  | offered _ noted _ =>
    rcases noted with rfl | ⟨url, rfl⟩
    · exact Or.inl rfl
    · exact Or.inr ⟨.lookup (.insertUrl url), rfl⟩
  | _ => exact Or.inl rfl

end Steps

end PoliteCrawler
