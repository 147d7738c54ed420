/-
This file says when the stream consumer loses no message.

A message is lost when it is below the group's position, not acknowledged, and
not in the batch the consumer works through: the loop reads new entries only, so
nothing delivers it again. The runs below lose none; each of their restrictions
excludes one of the ways in which the loop passes over a message.
-/

import PoliteCrawler.StreamConsumer

namespace PoliteCrawler

open CrawlerDb

section AtLeastOnce

variable {Url : Type} (crates : Crates Url)

/-- The entry has no payload, or one that decodes to an event that can be saved. -/
def Processable (storage : CrawlerStorage Url) (faults : DbFaults) (entry : StreamEntry) : Prop :=
  ∀ payload, entry = some payload →
    ∃ data, crates.fromJson payload = some data ∧ Savable crates storage faults data

/-- The action passes over no message: the group is created before the first publish, no reply
that delivers entries is lost, what is processed can be saved, an acknowledgement takes effect,
and a kill finds no entry in hand. -/
def Delivers (service : StorageService Url) : ServiceAction Url → Prop
  | .createGroup call => call ≠ .failed → service.log.group = none → service.log.entries = []
  | .read call => call = .lost → service.log.fresh readCount = []
  | .process faults => ∀ entry id batch, service.consumer = .processing ((entry, id) :: batch) →
      Processable crates service.storage faults entry
  | .ack call => call ≠ .failed
  | .kill => service.consumer.inHand = []
  | _ => True

/-- An entry is processed without error exactly when it can be. -/
theorem processStreamEntry_ok_iff {storage : CrawlerStorage Url} (fit : CacheIdentifies storage)
    (faults : DbFaults) (entry : StreamEntry) :
    (∃ sitemaps, (processStreamEntry crates storage faults entry).1 = .ok sitemaps) ↔
      Processable crates storage faults entry := by
  cases entry with
  | none => exact iff_of_true ⟨_, rfl⟩ fun _ same => by cases same
  | some payload =>
    cases decoded : crates.fromJson payload with
    | none =>
      refine iff_of_false ?_ fun processable => ?_
      · simp [processStreamEntry, decoded]
      · obtain ⟨data, same, _⟩ := processable payload rfl
        rw [decoded] at same
        cases same
    | some data =>
      have saved := saveParsedData_saved crates storage faults data
      simp only [processStreamEntry, decoded]
      rw [saved.ok_iff crates fit]
      constructor
      · rintro savable _ ⟨⟩
        exact ⟨data, decoded, savable⟩
      · intro processable
        obtain ⟨other, same, savable⟩ := processable payload rfl
        obtain rfl := Option.some.inj (decoded.symm.trans same)
        exact savable

/-- What the runs that deliver everything keep. -/
structure Delivering (service : StorageService Url) : Prop where
  kept : service.log.NoneLost service.consumer.inHand
  fit : CacheIdentifies service.storage

theorem ServiceMoved.cacheIdentifies {service next : StorageService Url}
    {action : ServiceAction Url} (moved : ServiceMoved crates service action next)
    (fit : CacheIdentifies service.storage) : CacheIdentifies next.storage := by
  rcases moved.storage with same | ⟨op, stepped⟩
  · rwa [same]
  · exact storageStep_cacheIdentifies crates fit stepped

theorem ServiceMoved.noneLost {service next : StorageService Url} {action : ServiceAction Url}
    (moved : ServiceMoved crates service action next) (delivering : Delivering service)
    (delivers : Delivers crates service action) : next.log.NoneLost next.consumer.inHand := by
  have kept := delivering.kept
  cases moved with
  | published entry => exact kept.append entry
  | started _ down =>
    rw [down] at kept
    exact kept
  | groupCreated starting performed idle =>
    rw [starting] at kept
    rw [idle]
    exact kept.createGroup (delivers performed)
  | groupFailed starting =>
    rw [starting] at kept
    exact kept
  | readAnswered reading =>
    rw [reading] at kept
    rw [Consumer.inHand_next]
    exact kept.deliver readCount
  | readLost reading =>
    rw [reading] at kept ⊢
    have handed := kept.deliver readCount
    rwa [delivers rfl] at handed
  | readFailed => exact kept
  | processed processing _ =>
    rw [processing] at kept
    exact kept
  | @dropped faults entry id abort _ batch processing failed _ =>
    obtain ⟨sitemaps, succeeded⟩ :=
      (processStreamEntry_ok_iff crates delivering.fit faults entry).mpr
        (delivers entry id batch processing)
    rw [failed] at succeeded
    cases succeeded
  | offered offering _ goesOn =>
    rw [offering] at kept
    rcases goesOn with rfl | ⟨url, rfl⟩ <;> exact kept
  | pushed pushing _ goesOn =>
    rw [pushing] at kept
    rcases goesOn with rfl | rfl <;> exact kept
  | pushFailed pushing goesOn =>
    rw [pushing] at kept
    rcases goesOn with rfl | rfl <;> exact kept
  | acked acking _ =>
    rw [acking] at kept
    rw [Consumer.inHand_next]
    exact kept.acknowledge
  | ackFailed _ => exact absurd rfl delivers
  | shutDown reading =>
    rw [reading] at kept
    exact kept
  | killed =>
    rw [delivers] at kept
    exact kept
  | looked _ => exact kept

/-- In every run that keeps to these restrictions each published message is acknowledged, ahead of
the group's position, or in the batch the consumer works through. -/
theorem no_message_lost {db : CrawlerDb} {userAgent : String} {service : StorageService Url}
    (reached : Transition.ReachesWith (serviceStep crates) (Delivers crates)
      (StorageService.initial db userAgent) service) :
    service.log.NoneLost service.consumer.inHand := by
  have start : Delivering (StorageService.initial db userAgent : StorageService Url) :=
    ⟨GroupedLog.noneLost_empty, cacheFits_started _ db userAgent⟩
  refine (reached.invariant start fun before action after delivering delivers stepped => ?_).kept
  have moved := serviceStep_moved crates stepped
  exact ⟨moved.noneLost crates delivering delivers, moved.cacheIdentifies crates delivering.fit⟩

/-! ### Lost for good -/

theorem ServiceMoved.lost {service next : StorageService Url} {action : ServiceAction Url}
    {id : Nat} (moved : ServiceMoved crates service action next)
    (lost : service.log.Lost service.consumer.inHand id) :
    next.log.Lost next.consumer.inHand id := by
  cases moved with
  | published entry => exact lost.append entry
  | started _ _ => exact lost.subset (List.nil_subset _)
  | groupCreated _ _ idle =>
    rw [idle]
    exact (lost.subset (List.nil_subset _)).createGroup
  | groupFailed _ => exact lost.subset (List.nil_subset _)
  | readAnswered _ =>
    rw [Consumer.inHand_next]
    exact lost.deliver readCount
  | readLost reading =>
    rw [reading]
    exact (lost.deliver readCount).subset (List.nil_subset _)
  | readFailed => exact lost
  | processed processing _ =>
    rw [processing] at lost
    exact lost
  | dropped processing _ goesOn =>
    rw [processing] at lost
    rcases goesOn with rfl | rfl
    · exact lost.subset (List.nil_subset _)
    · rw [Consumer.inHand_next]
      exact lost.subset (List.subset_cons_self _ _)
  | offered offering _ goesOn =>
    rw [offering] at lost
    rcases goesOn with rfl | ⟨url, rfl⟩ <;> exact lost
  | pushed pushing _ goesOn =>
    rw [pushing] at lost
    rcases goesOn with rfl | rfl <;> exact lost
  | pushFailed pushing goesOn =>
    rw [pushing] at lost
    rcases goesOn with rfl | rfl <;> exact lost
  | acked acking _ =>
    rw [acking] at lost
    rw [Consumer.inHand_next]
    exact lost.acknowledge
  | ackFailed acking =>
    rw [acking] at lost
    rw [Consumer.inHand_next]
    exact lost.subset (List.subset_cons_self _ _)
  | shutDown _ => exact lost.subset (List.nil_subset _)
  | killed => exact lost.subset (List.nil_subset _)
  | looked _ => exact lost

/-- A lost message is never read again, whatever the service does, restarts included. -/
theorem lost_for_good {service later : StorageService Url} {id : Nat}
    (lost : service.log.Lost service.consumer.inHand id)
    (reached : Transition.Reaches (serviceStep crates) service later) :
    later.log.Lost later.consumer.inHand id :=
  reached.invariant lost fun _ _ _ lost _ stepped =>
    (serviceStep_moved crates stepped).lost crates lost

/-! ### The runs that lose no message -/

theorem ServiceMoved.orderly {service next : StorageService Url} {action : ServiceAction Url}
    (moved : ServiceMoved crates service action next)
    (orderly : service.log.Orderly service.consumer.inHand) :
    next.log.Orderly next.consumer.inHand := by
  cases moved with
  | published entry => exact orderly.append entry
  | started _ _ => exact orderly.sublist (List.nil_sublist _)
  | groupCreated _ _ idle =>
    rw [idle]
    exact (orderly.sublist (List.nil_sublist _)).createGroup
  | groupFailed _ => exact orderly.sublist (List.nil_sublist _)
  | readAnswered _ =>
    rw [Consumer.inHand_next]
    exact orderly.deliver readCount
  | readLost reading =>
    rw [reading]
    exact (orderly.deliver readCount).sublist (List.nil_sublist _)
  | readFailed => exact orderly
  | processed processing _ =>
    rw [processing] at orderly
    exact orderly
  | dropped processing _ goesOn =>
    rw [processing] at orderly
    rcases goesOn with rfl | rfl
    · exact orderly.sublist (List.nil_sublist _)
    · rw [Consumer.inHand_next]
      exact orderly.sublist (List.sublist_cons_self _ _)
  | offered offering _ goesOn =>
    rw [offering] at orderly
    rcases goesOn with rfl | ⟨url, rfl⟩ <;> exact orderly
  | pushed pushing _ goesOn =>
    rw [pushing] at orderly
    rcases goesOn with rfl | rfl <;> exact orderly
  | pushFailed pushing goesOn =>
    rw [pushing] at orderly
    rcases goesOn with rfl | rfl <;> exact orderly
  | acked acking _ =>
    rw [acking] at orderly
    rw [Consumer.inHand_next]
    exact orderly.acknowledge
  | ackFailed acking =>
    rw [acking] at orderly
    rw [Consumer.inHand_next]
    exact orderly.sublist (List.sublist_cons_self _ _)
  | shutDown _ => exact orderly.sublist (List.nil_sublist _)
  | killed => exact orderly.sublist (List.nil_sublist _)
  | looked _ => exact orderly

/-- Each restriction is needed: a step that breaks it loses a message. -/
theorem ServiceMoved.delivers {service next : StorageService Url} {action : ServiceAction Url}
    (moved : ServiceMoved crates service action next) (fit : CacheIdentifies service.storage)
    (orderly : service.log.Orderly service.consumer.inHand)
    (kept : next.log.NoneLost next.consumer.inHand) : Delivers crates service action := by
  cases moved with
  | groupCreated _ _ idle =>
    rw [idle] at kept
    exact fun _ => orderly.entries_of_createGroup kept
  | groupFailed _ => exact fun performed => absurd rfl performed
  | readAnswered _ => exact fun same => nomatch same
  | readLost reading =>
    rw [reading] at kept
    exact fun _ => orderly.fresh_of_deliver kept
  | readFailed => exact fun same => nomatch same
  | @processed faults entry id sitemaps batch processing succeeded =>
    intro other _ _ same
    obtain ⟨⟨⟨rfl, rfl⟩, rfl⟩⟩ := processing.symm.trans same
    exact (processStreamEntry_ok_iff crates fit faults entry).mp ⟨sitemaps, succeeded⟩
  | @dropped faults entry id abort _ batch processing _ goesOn =>
    rw [processing] at orderly
    have held : id ∈ (Consumer.processing ((entry, id) :: batch)).inHand := List.mem_cons_self
    have still := orderly.subset_of_noneLost kept held
    rcases goesOn with rfl | rfl
    · cases still
    · rw [Consumer.inHand_next] at still
      exact absurd still (List.nodup_cons.mp orderly.distinct).1
  | acked _ performed => exact performed
  | @ackFailed id batch acking =>
    rw [acking] at orderly
    have held : id ∈ (Consumer.offering id [] batch).inHand := List.mem_cons_self
    have still := orderly.subset_of_noneLost kept held
    rw [Consumer.inHand_next] at still
    exact absurd still (List.nodup_cons.mp orderly.distinct).1
  | killed => exact List.eq_nil_of_subset_nil (orderly.subset_of_noneLost kept)
  | _ => trivial

/-- What the runs that deliver everything keep, and all runs keep of what is in hand. -/
structure InOrder (service : StorageService Url) : Prop where
  delivering : Delivering service
  orderly : service.log.Orderly service.consumer.inHand

def StorageService.NoneLost (service : StorageService Url) : Prop :=
  service.log.NoneLost service.consumer.inHand

/-- A run has lost no message exactly when each of its steps kept to the restrictions. -/
theorem run_noneLost_iff {db : CrawlerDb} {userAgent : String} {actions : List (ServiceAction Url)}
    {last : StorageService Url}
    (ran : Transition.run (serviceStep crates) actions (StorageService.initial db userAgent) =
      some last) :
    last.log.NoneLost last.consumer.inHand ↔
      Transition.Permits (serviceStep crates) (Delivers crates) actions
        (StorageService.initial db userAgent) := by
  have start : InOrder (StorageService.initial db userAgent : StorageService Url) :=
    ⟨⟨GroupedLog.noneLost_empty, cacheFits_started _ db userAgent⟩, GroupedLog.orderly_empty⟩
  have sound : ∀ service : StorageService Url, InOrder service → service.NoneLost :=
    fun _ inOrder => inOrder.delivering.kept
  refine Transition.holds_iff_permits sound ?_ ?_ ?_ ran start
  · intro before action after inOrder delivers stepped
    have moved := serviceStep_moved crates stepped
    exact ⟨⟨moved.noneLost crates inOrder.delivering delivers,
      moved.cacheIdentifies crates inOrder.delivering.fit⟩, moved.orderly crates inOrder.orderly⟩
  · intro before action after inOrder refused stepped kept
    exact refused ((serviceStep_moved crates stepped).delivers crates inOrder.delivering.fit
      inOrder.orderly kept)
  · -- what is lost stays lost
    intro before action after broken stepped kept
    obtain ⟨id, lost⟩ := GroupedLog.not_noneLost_iff.mp broken
    exact GroupedLog.not_noneLost_iff.mpr
      ⟨id, (serviceStep_moved crates stepped).lost crates lost⟩ kept

end AtLeastOnce

/-! ### The sample web -/

/-- The storage service of the sample web on a new database. -/
def sampleService : StorageService SampleUrl :=
  StorageService.initial CrawlerDb.empty "EDUCATIONAL_CRAWLER"

/-- An event of the sample web as its stream entry. -/
def sampleEntry (data : ParsedData) : StreamEntry := some (sampleCrates.toJson data)

/-- The consumer comes up first, then a domain event is published, processed and acknowledged. -/
def sampleDelivery : List (ServiceAction SampleUrl) :=
  [.start DbFaults.none, .createGroup .answered, .publish (sampleEntry sampleDomainEvent),
    .read .answered, .process DbFaults.none, .ack .answered]

theorem no_message_lost_sampleDelivery : ∃ service : StorageService SampleUrl,
    Transition.run (serviceStep sampleCrates) sampleDelivery sampleService = some service ∧
      service.log.acknowledged = [0] ∧ service.log.NoneLost service.consumer.inHand := by
  obtain ⟨service, ran⟩ : ∃ service, Transition.run (serviceStep sampleCrates) sampleDelivery
    sampleService = some service := ⟨_, rfl⟩
  have acknowledged : (Transition.run (serviceStep sampleCrates) sampleDelivery sampleService).map
      (fun service => service.log.acknowledged) = some [0] := by decide +kernel
  rw [ran] at acknowledged
  refine ⟨service, ran, Option.some.inj acknowledged,
    no_message_lost sampleCrates (Transition.reachesWith_of_run ran ?_)⟩
  refine ⟨trivial, ?_⟩
  rintro _ ⟨⟩
  refine ⟨fun _ _ => rfl, ?_⟩
  rintro _ ⟨⟩
  refine ⟨trivial, ?_⟩
  rintro _ ⟨⟩
  refine ⟨nofun, ?_⟩
  rintro _ ⟨⟩
  refine ⟨?_, ?_⟩
  · rintro _ _ _ ⟨⟩ _ ⟨⟩
    exact ⟨sampleDomainEvent, by decide +kernel, rfl, ⟨none, rfl⟩, by decide⟩
  rintro _ ⟨⟩
  exact ⟨nofun, fun _ _ => trivial⟩

/-- A message published before the group exists is below the position the group is created
with. -/
theorem message_before_group_lost : ∃ service : StorageService SampleUrl,
    Transition.run (serviceStep sampleCrates)
        [.publish (sampleEntry sampleDomainEvent), .start DbFaults.none, .createGroup .answered]
        sampleService = some service ∧
      ¬ service.log.NoneLost service.consumer.inHand := by
  refine ⟨_, rfl, fun kept => ?_⟩
  rcases kept 0 Nat.zero_lt_one with acknowledged | ahead | held
  · exact List.not_mem_nil acknowledged
  · exact Nat.not_succ_le_zero 0 (ahead _ rfl)
  · exact List.not_mem_nil held

end PoliteCrawler
