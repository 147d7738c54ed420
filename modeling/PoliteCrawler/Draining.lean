/-
This file proves that no message waits for ever.

An entry of the stream that the group has not read, or that lies in the batch of
the consumer, is due. Each step of the consumer brings it nearer: a read moves
the position of the group, and between two reads the consumer works through a
batch, whose entries can each name any number of sitemaps, each of which is
tried up to three times. So the way left is counted in the lexicographic order
of the distance to the position, of the batch, and of the sitemaps.

The workers add to the stream all the time, and may be restarted. What they add
comes behind the entry that is due, so it does not delay it.
-/

import PoliteCrawler.AtLeastOnce
import PoliteCrawler.Liveness
import PoliteCrawler.SeenUrlsFrame

namespace PoliteCrawler

open Transition (toLex_lt_of_fst toLex_lt_of_snd)

variable {Url : Type}

/-! ### What the consumer has left to do -/

/-- The consumer is in its loop. -/
def Consumer.inLoop : Consumer → Bool
  | .reading | .processing _ | .offering _ _ _ | .pushing _ _ _ _ _ => true
  | .down | .starting | .stopped => false

/-- A push is tried no more often than the loop allows. -/
def Consumer.WithinAttempts : Consumer → Prop
  | .pushing _ _ attempt _ _ => attempt ≤ pushAttempts
  | _ => True

/-- The steps left until the next read: the entries of the batch, and the sitemaps of the one that
is processed with the attempts to push them. -/
def Consumer.stepsLeft : Consumer → ℕ ×ₗ ℕ
  | .processing batch => toLex (2 * batch.length, 0)
  | .offering _ sitemaps batch =>
    toLex (2 * batch.length + 1, (pushAttempts + 1) * sitemaps.length)
  | .pushing _ _ attempt sitemaps batch =>
    toLex (2 * batch.length + 1,
      (pushAttempts + 1) * sitemaps.length + (pushAttempts + 1 - attempt))
  | _ => toLex (0, 0)

theorem Consumer.stepsLeft_next (batch : List (StreamEntry × Nat)) :
    (Consumer.next batch).stepsLeft = toLex (2 * batch.length, 0) := by
  cases batch <;> rfl

theorem Consumer.inLoop_next (batch : List (StreamEntry × Nat)) :
    (Consumer.next batch).inLoop = true := by
  cases batch <;> rfl

theorem Consumer.withinAttempts_next (batch : List (StreamEntry × Nat)) :
    (Consumer.next batch).WithinAttempts := by
  cases batch <;> trivial

/-- The consumer waits for the stream, and nothing is there to read. -/
structure StorageService.Idle (service : StorageService Url) : Prop where
  reading : service.consumer = .reading
  drained : service.log.undelivered = []

/-- The action is a step of the consumer, and no read that fails or finds nothing. -/
def StorageService.worksAt (service : StorageService Url) : ServiceAction Url → Prop
  | .read call => call = .answered ∧ service.log.undelivered ≠ []
  | .process _ | .offer | .pushSitemap _ | .ack _ => True
  | _ => False

/-- The action hands the entry of the number to `process_stream_entry`. -/
def StorageService.handles (service : StorageService Url) (id : Nat) :
    ServiceAction Url → Prop
  | .process _ => ∃ entry batch, service.consumer = .processing ((entry, id) :: batch)
  | _ => False

/-- The consumer stays in its loop, and no reply to a read is lost. -/
def StorageService.undisturbed (crates : Crates Url) (service : StorageService Url) :
    ServiceAction Url → Prop
  | .read call => call ≠ .lost
  | .process faults => ∀ entry id batch, service.consumer = .processing ((entry, id) :: batch) →
      (processStreamEntry crates service.storage faults entry).1 ≠ .error .panicked
  | .shutdown | .kill => False
  | _ => True

/-- The entry of the number is still to be processed, or still to be added. -/
structure StorageService.Due (service : StorageService Url) (id : Nat) : Prop where
  inLoop : service.consumer.inLoop = true
  attempts : service.consumer.WithinAttempts
  grouped : service.log.readTo ≠ none
  waits : id ∈ service.consumer.batch.map Prod.snd ∨ service.log.Unread id

/-- The way left to the entry of the number. -/
def StorageService.way (service : StorageService Url) (id : Nat) : ℕ ×ₗ (ℕ ×ₗ ℕ) :=
  toLex (service.log.distance id, service.consumer.stepsLeft)

/-! ### The steps of the storage service -/

section Service

variable {service next : StorageService Url} {id : Nat}

/-- Only the position of the group matters to an entry that is not in the batch. -/
theorem StorageService.Due.keeps (due : service.Due id) (inLoop : next.consumer.inLoop = true)
    (attempts : next.consumer.WithinAttempts) (position : next.log.readTo = service.log.readTo)
    (batch : id ∈ service.consumer.batch.map Prod.snd → id ∈ next.consumer.batch.map Prod.snd) :
    next.Due id ∧ next.log.distance id = service.log.distance id := by
  have unread : next.log.Unread id ↔ service.log.Unread id := by
    rw [GroupedLog.Unread, GroupedLog.Unread, position]
  refine ⟨⟨inLoop, attempts, ?_, ?_⟩, ?_⟩
  · rw [position]
    exact due.grouped
  · rw [unread]
    exact due.waits.imp_left batch
  · rw [GroupedLog.distance, GroupedLog.distance, position]

/-- A step that leaves the position and the consumer as they are changes nothing for the entry. -/
theorem StorageService.Due.beside (due : service.Due id)
    (consumer : next.consumer = service.consumer)
    (position : next.log.readTo = service.log.readTo) :
    next.Due id ∧ next.way id = service.way id := by
  obtain ⟨kept, distance⟩ := due.keeps (by rw [consumer]; exact due.inLoop)
    (by rw [consumer]; exact due.attempts) position (by rw [consumer]; exact fun member => member)
  exact ⟨kept, by rw [way, way, distance, consumer]⟩

/-- A step of the consumer inside a batch brings the entry nearer. -/
theorem StorageService.Due.within (due : service.Due id) (inLoop : next.consumer.inLoop = true)
    (attempts : next.consumer.WithinAttempts) (position : next.log.readTo = service.log.readTo)
    (batch : id ∈ service.consumer.batch.map Prod.snd → id ∈ next.consumer.batch.map Prod.snd)
    (fewer : next.consumer.stepsLeft < service.consumer.stepsLeft) :
    next.Due id ∧ next.way id < service.way id := by
  obtain ⟨kept, distance⟩ := due.keeps inLoop attempts position batch
  exact ⟨kept, Prod.Lex.toLex_lt_toLex.mpr (Or.inr ⟨distance, fewer⟩)⟩

/-- A read brings an unread entry nearer when it finds something, and changes nothing when not. -/
theorem StorageService.Due.read (due : service.Due id) {call : Call}
    (moved : service.read call = some next) (kept : call ≠ .lost) :
    next.Due id ∧ next.way id ≤ service.way id ∧
      (service.worksAt (.read call) → next.way id < service.way id) := by
  unfold StorageService.read at moved
  split at moved
  · rename_i reading
    cases moved
    have unread : service.log.Unread id := due.waits.resolve_left fun member => by
      rw [reading] at member
      cases member
    have nearer : service.log.undelivered ≠ [] →
        (service.log.deliver readCount).distance id < service.log.distance id := fun waits =>
      GroupedLog.distance_deliver_lt unread (GroupedLog.fresh_ne_nil (by decide) waits)
    refine ⟨⟨Consumer.inLoop_next _, Consumer.withinAttempts_next _, ?_, ?_⟩, ?_, ?_⟩
    · show (service.log.deliver readCount).readTo ≠ none
      rw [GroupedLog.readTo_deliver]
      exact fun none => due.grouped (Option.map_eq_none_iff.mp none)
    · rw [Consumer.batch_next]
      exact unread.deliver readCount
    · by_cases waits : service.log.undelivered = []
      · have none : service.log.fresh readCount = [] := by
          have handed := service.log.undelivered_deliver readCount
          rw [waits] at handed
          exact List.map_eq_nil_iff.mp (List.append_eq_nil_iff.mp handed).1
        have same : (service.log.deliver readCount).distance id = service.log.distance id := by
          rw [GroupedLog.distance, GroupedLog.distance, GroupedLog.readTo_deliver, none]
          cases service.log.readTo <;> rfl
        refine le_of_eq ?_
        show toLex (_, _) = toLex (_, _)
        rw [same, none, reading]
        rfl
      · exact (toLex_lt_of_fst (nearer waits)).le
    · exact fun works => toLex_lt_of_fst (nearer works.2)
  · exact absurd rfl kept
  · cases moved
    exact ⟨due, le_rfl, fun works => by cases works.1⟩
  · cases moved

variable {crates : Crates Url}

/-- An entry that is processed leaves the batch, and any other comes nearer. -/
theorem StorageService.Due.process (due : service.Due id) {faults : DbFaults}
    (moved : service.process crates faults = some next)
    (returns : service.undisturbed crates (.process faults))
    (others : ¬ service.handles id (.process faults)) :
    next.Due id ∧ next.way id < service.way id := by
  unfold StorageService.process at moved
  split at moved
  · rename_i entry head batch processing
    cases moved
    have other : id ≠ head := by
      rintro rfl
      exact others ⟨entry, batch, processing⟩
    have stays : id ∈ service.consumer.batch.map Prod.snd → id ∈ batch.map Prod.snd := by
      rw [processing]
      exact fun member => (List.mem_cons.mp member).resolve_left other
    have fewer : toLex (2 * batch.length, 0) < service.consumer.stepsLeft := by
      rw [processing]
      exact toLex_lt_of_fst (by rw [List.length_cons]; omega)
    cases result : (processStreamEntry crates service.storage faults entry).1 with
    | ok sitemaps =>
      refine due.within rfl trivial rfl stays ?_
      rw [processing]
      exact toLex_lt_of_fst (by rw [List.length_cons]; omega)
    | error abort =>
      cases abort with
      | error reason =>
        refine due.within (Consumer.inLoop_next _) (Consumer.withinAttempts_next _) rfl ?_ ?_
        · rw [Consumer.batch_next]
          exact stays
        · rw [Consumer.stepsLeft_next]
          exact fewer
      | panicked => exact absurd result (returns entry head batch processing)
  · cases moved

theorem StorageService.Due.offer (due : service.Due id)
    (moved : service.offer crates = some next) : next.Due id ∧ next.way id < service.way id := by
  obtain ⟨head, sitemap, sitemaps, batch, offering, ⟨_, _, rfl⟩ | ⟨url, _, rfl⟩⟩ :=
    offer_eq_some crates moved
  · refine due.within rfl trivial rfl (fun member => ?_) ?_
    · rwa [offering] at member
    · rw [offering]
      exact toLex_lt_of_snd (by rw [List.length_cons, Nat.mul_succ]; omega)
  · cases (service.storage.insertUrlInSeenUrls crates url).1 with
    | true =>
      refine due.within rfl trivial rfl (fun member => ?_) ?_
      · rwa [offering] at member
      · rw [offering]
        exact toLex_lt_of_snd (by rw [List.length_cons, Nat.mul_succ]; omega)
    | false =>
      refine due.within rfl (Nat.le_add_left 1 2) rfl (fun member => ?_) ?_
      · rwa [offering] at member
      · rw [offering]
        exact toLex_lt_of_snd (by rw [List.length_cons, Nat.mul_succ]; omega)

/-- A push that fails is tried again, or was the last one. -/
theorem StorageService.Due.pushSitemap (due : service.Due id) {call : Call}
    (moved : service.pushSitemap call = some next) :
    next.Due id ∧ next.way id < service.way id := by
  unfold StorageService.pushSitemap at moved
  split at moved
  · rename_i head sitemap attempt sitemaps batch pushing
    have within : attempt ≤ pushAttempts := by
      have attempts := due.attempts
      rwa [pushing] at attempts
    have gone : ∀ left : StorageService Url, left.consumer = .offering head sitemaps batch →
        left.log.readTo = service.log.readTo → left.Due id ∧ left.way id < service.way id := by
      intro left consumer position
      refine due.within (by rw [consumer]; rfl) (by rw [consumer]; trivial) position ?_ ?_
      · rw [consumer, pushing]
        exact fun member => member
      · rw [consumer, pushing]
        exact toLex_lt_of_snd (by omega)
    have retried : ∀ left : StorageService Url, left.consumer =
          (if attempt = pushAttempts then .offering head sitemaps batch
            else .pushing head sitemap (attempt + 1) sitemaps batch) →
        left.log.readTo = service.log.readTo → left.Due id ∧ left.way id < service.way id := by
      intro left consumer position
      by_cases last : attempt = pushAttempts
      · rw [if_pos last] at consumer
        exact gone left consumer position
      · rw [if_neg last] at consumer
        have more : attempt + 1 ≤ pushAttempts := Nat.lt_of_le_of_ne within last
        refine due.within (by rw [consumer]; rfl) (by rw [consumer]; exact more) position ?_ ?_
        · rw [consumer, pushing]
          exact fun member => member
        · rw [consumer, pushing]
          exact toLex_lt_of_snd (by omega)
    cases call <;> cases moved
    · exact gone _ rfl rfl
    · exact retried _ rfl rfl
    · exact retried _ rfl rfl
  · cases moved

theorem StorageService.Due.ack (due : service.Due id) {call : Call}
    (moved : service.ack call = some next) : next.Due id ∧ next.way id < service.way id := by
  unfold StorageService.ack at moved
  split at moved
  · rename_i head batch acking
    cases moved
    refine due.within (Consumer.inLoop_next _) (Consumer.withinAttempts_next _) ?_ ?_ ?_
    · dsimp only
      split
      · rfl
      · exact GroupedLog.readTo_acknowledge _ _
    · rw [acking, Consumer.batch_next]
      exact fun member => member
    · rw [acking, Consumer.stepsLeft_next]
      exact toLex_lt_of_fst (Nat.lt_succ_self _)
  · cases moved

/-- Every step of a storage service that is not disturbed leaves the entry due, until it is
processed, and every step of the consumer brings it nearer. -/
theorem StorageService.Due.step (due : service.Due id) {action : ServiceAction Url}
    (moved : serviceStep crates action service = some next)
    (undisturbed : service.undisturbed crates action) (others : ¬ service.handles id action) :
    next.Due id ∧ next.way id ≤ service.way id ∧
      (service.worksAt action → next.way id < service.way id) := by
  have nearer : next.Due id ∧ next.way id < service.way id → next.Due id ∧
      next.way id ≤ service.way id ∧ (service.worksAt action → next.way id < service.way id) :=
    fun both => ⟨both.1, both.2.le, fun _ => both.2⟩
  have outside : service.consumer.inLoop = true := due.inLoop
  cases action with
  | publish entry | lookup request =>
    have same : next.consumer = service.consumer ∧ next.log.readTo = service.log.readTo := by
      cases serviceStep_moved crates moved
      exact ⟨rfl, rfl⟩
    obtain ⟨kept, way⟩ := due.beside same.1 same.2
    exact ⟨kept, way.le, fun works => works.elim⟩
  | start faults =>
    cases serviceStep_moved crates moved with
    | started _ down =>
      rw [down] at outside
      cases outside
  | createGroup call =>
    cases serviceStep_moved crates moved with
    | groupCreated starting | groupFailed starting =>
      rw [starting] at outside
      cases outside
  | read call => exact due.read moved undisturbed
  | process faults => exact nearer (due.process moved undisturbed others)
  | offer => exact nearer (due.offer moved)
  | pushSitemap call => exact nearer (due.pushSitemap moved)
  | ack call => exact nearer (due.ack moved)
  | shutdown | kill => exact undisturbed.elim

end Service

/-! ### The steps of a deployment -/

section Deployment

variable [DecidableEq Url] {crates : Crates Url} {n : Nat} {limit : Option (BitVec 64)}
  {deployment next : Deployment Url n} {action : DeploymentAction Url n} {id : Nat}

omit [DecidableEq Url] in
/-- An event is added behind all entries. -/
theorem publishEvent_stream (service : StorageService Url) (event : ParsedData) (call : Call) :
    (publishEvent crates service event call).log.readTo = service.log.readTo ∧
      service.log.entries <+: (publishEvent crates service event call).log.entries := by
  unfold publishEvent
  split
  · exact ⟨rfl, List.prefix_refl _⟩
  · exact ⟨rfl, List.prefix_append _ _⟩

/-- The workers leave the position of the group, and take no entry from the stream. -/
theorem WorkerMoved.stream_kept {shared after : Shared Url} {worker left : Worker Url}
    {input : Input Url} (moved : WorkerMoved crates shared worker input after left) :
    after.service.log.readTo = shared.service.log.readTo ∧
      shared.service.log.entries <+: after.service.log.entries := by
  rcases moved.stream_cases with aside | ⟨_, _, _, _, _, rfl⟩ | ⟨_, _, _, _, _, _, _, _, rfl⟩
  · rw [aside.log]
    exact ⟨rfl, List.prefix_refl _⟩
  · exact publishEvent_stream _ _ _
  · exact publishEvent_stream _ _ _

omit [DecidableEq Url] in
theorem serviceStep_entries {service next : StorageService Url} {action : ServiceAction Url}
    (moved : serviceStep crates action service = some next) :
    service.log.entries <+: next.log.entries := by
  cases serviceStep_moved crates moved with
  | published entry => exact List.prefix_append _ _
  | _ => exact List.prefix_refl _

/-- The storage service of the deployment. -/
abbrev Deployment.service (deployment : Deployment Url n) : StorageService Url :=
  deployment.crawler.shared.service

/-- The deployment's action, as the storage service sees it. -/
def DeploymentAction.onService : DeploymentAction Url n → Option (ServiceAction Url)
  | .crawl (.service action) => some action
  | _ => none

/-- The consumer stays in its loop, and no reply to a read is lost. Whatever else happens. -/
def Deployment.undisturbed (crates : Crates Url) (deployment : Deployment Url n)
    (action : DeploymentAction Url n) : Prop :=
  ∀ served, action.onService = some served → deployment.service.undisturbed crates served

/-- The action is a step of the consumer, and no read that fails or finds nothing. -/
def Deployment.worksAt (deployment : Deployment Url n) (action : DeploymentAction Url n) : Prop :=
  ∃ served, action.onService = some served ∧ deployment.service.worksAt served

/-- The action hands the entry of the number to `process_stream_entry`. -/
def Deployment.handles (deployment : Deployment Url n) (id : Nat)
    (action : DeploymentAction Url n) : Prop :=
  ∃ served, action.onService = some served ∧ deployment.service.handles id served

theorem crawlerStep_stream {action : CrawlerAction Url n} {crawler after : Crawler Url n}
    (moved : crawlerStep crates limit action crawler = some after) :
    (∃ served, action = .service served ∧
        serviceStep crates served crawler.shared.service = some after.shared.service) ∨
      (∀ served, action ≠ .service served) ∧
        after.shared.service.consumer = crawler.shared.service.consumer ∧
        after.shared.service.log.readTo = crawler.shared.service.log.readTo ∧
        crawler.shared.service.log.entries <+: after.shared.service.log.entries := by
  cases action with
  | worker id input =>
    obtain ⟨⟨shared, worker⟩, stepped, rfl⟩ := Option.map_eq_some_iff.mp moved
    have worked := workerStep_moved stepped
    exact Or.inr ⟨(fun _ same => by cases same), worked.consumer_eq, worked.stream_kept⟩
  | service served =>
    obtain ⟨service, stepped, rfl⟩ := Option.map_eq_some_iff.mp moved
    exact Or.inl ⟨served, rfl, stepped⟩
  | monitor | interrupt | tick _ =>
    cases crawlerStep_moved crates moved
    exact Or.inr ⟨(fun _ same => by cases same), rfl, rfl, List.prefix_refl _⟩

/-- A step of the deployment is one of the storage service, or leaves the consumer and the position
of the group as they are and takes no entry from the stream. -/
theorem deploymentStep_stream
    (moved : deploymentStep crates limit action deployment = some next) :
    (∃ served, action.onService = some served ∧
        serviceStep crates served deployment.service = some next.service) ∨
      action.onService = none ∧ next.service.consumer = deployment.service.consumer ∧
        next.service.log.readTo = deployment.service.log.readTo ∧
        deployment.service.log.entries <+: next.service.log.entries := by
  cases action with
  | crawl action =>
    obtain ⟨_, _, crawled⟩ := crawlerStep_of_moved moved
    rcases crawlerStep_stream crawled with ⟨served, rfl, stepped⟩ | ⟨others, beside⟩
    · exact Or.inl ⟨served, rfl, stepped⟩
    · refine Or.inr ⟨?_, beside⟩
      cases action with
      | service served => exact absurd rfl (others served)
      | _ => rfl
  | launch input =>
    obtain ⟨⟨shared, launch⟩, launched, rfl⟩ := Option.map_eq_some_iff.mp moved
    have aside := launchStep_aside launched
    refine Or.inr ⟨rfl, aside.consumer, congrArg GroupedLog.readTo aside.log, ?_⟩
    exact (congrArg GroupedLog.entries aside.log) ▸ List.prefix_refl _
  | restart startUrl seed =>
    cases moved
    exact Or.inr ⟨rfl, rfl, rfl, List.prefix_refl _⟩

theorem deploymentStep_entries (moved : deploymentStep crates limit action deployment = some next) :
    deployment.service.log.entries <+: next.service.log.entries := by
  rcases deploymentStep_stream moved with ⟨_, _, stepped⟩ | ⟨_, _, _, entries⟩
  · exact serviceStep_entries stepped
  · exact entries

/-- The clock may stand still. -/
theorem deploymentStep_tick_zero (deployment : Deployment Url n) :
    deploymentStep crates limit (.crawl (.tick 0)) deployment = some deployment := by
  simp only [deploymentStep, Deployment.enables, crawlerStep, poppedBy, enteredBy, Nat.cast_zero,
    Int.add_zero, List.append_nil, if_true, Option.map_some]

/-- An entry that is due comes nearer with every step of the consumer, and no other step of the
deployment changes its way. -/
def dueRank (crates : Crates Url) (limit : Option (BitVec 64)) (id : Nat) :
    Transition.Ranking (deploymentStep (n := n) crates limit)
      (fun deployment action => deployment.undisturbed crates action ∧
        ¬ deployment.handles id action)
      (fun deployment => deployment.service.Due id) Deployment.worksAt (ℕ ×ₗ (ℕ ×ₗ ℕ)) where
  rank deployment := deployment.service.way id
  keeps _ _ _ due allowed moved := by
    rcases deploymentStep_stream moved with ⟨served, seen, stepped⟩ | ⟨_, consumer, position, _⟩
    · exact (due.step stepped (allowed.1 served seen)
        fun handled => allowed.2 ⟨served, seen, handled⟩).1
    · exact (due.beside consumer position).1
  bounds _ _ _ due allowed moved := by
    rcases deploymentStep_stream moved with ⟨served, seen, stepped⟩ | ⟨_, consumer, position, _⟩
    · exact (due.step stepped (allowed.1 served seen)
        fun handled => allowed.2 ⟨served, seen, handled⟩).2.1
    · exact (due.beside consumer position).2.le
  lowers _ _ _ due allowed works moved := by
    obtain ⟨served, seen, works⟩ := works
    rcases deploymentStep_stream moved with ⟨served', seen', stepped⟩ | ⟨unseen, _⟩
    · obtain rfl : served = served' := Option.some.inj (seen.symm.trans seen')
      exact (due.step stepped (allowed.1 served seen)
        fun handled => allowed.2 ⟨served, seen, handled⟩).2.2 works
    · rw [seen] at unseen
      cases unseen

/-! ### Every message is processed -/

omit [DecidableEq Url] in
/-- While an entry of the stream is due, the consumer has something to do. -/
theorem StorageService.Due.busy {service : StorageService Url} (due : service.Due id)
    (present : id < service.log.entries.length) : ¬ service.Idle := by
  intro idle
  have unread : service.log.Unread id := due.waits.resolve_left fun member => by
    rw [idle.reading] at member
    cases member
  exact unread.undelivered_ne_nil due.grouped present idle.drained

omit [DecidableEq Url] in
/-- What a consumer that is to read has not read is due. -/
theorem StorageService.due_of_reading {service : StorageService Url} {position : Nat}
    (reading : service.consumer = .reading) (grouped : service.log.readTo = some position)
    (unread : position ≤ id) : service.Due id := by
  refine ⟨by rw [reading]; rfl, by rw [reading]; trivial, ?_, Or.inr fun other same => ?_⟩
  · rw [grouped]
    exact fun none => by cases none
  · obtain rfl : position = other := Option.some.inj (grouped.symm.trans same)
    exact unread

/-- An entry that is due is handled once it is there. -/
theorem handled_of_due
    {path : Transition.PathWith (deploymentStep (n := n) crates limit)
      (Deployment.undisturbed crates)} {early time : Nat}
    (due : (path.state early).service.Due id)
    (fair : path.Recurs fun deployment action =>
      deployment.service.Idle ∨ deployment.worksAt action)
    (present : id < (path.state time).service.log.entries.length) :
    ∃ later, early ≤ later ∧ (path.state later).handles id (path.action later) := by
  let added : Deployment Url n → Prop := fun deployment =>
    id < deployment.service.log.entries.length
  have stays : ∀ later, time ≤ later → added (path.state later) :=
    Transition.PathWith.lasts present fun _ _ _ before _ moved =>
      Nat.lt_of_lt_of_le before (deploymentStep_entries moved).length_le
  have busy : path.Recurs fun deployment action => deployment.service.Due id →
      deployment.handles id action ∨ deployment.worksAt action := by
    intro from_
    obtain ⟨later, after, idleOrWorks⟩ := fair (max from_ time)
    refine ⟨later, (le_max_left _ _).trans after, fun due => Or.inr ?_⟩
    exact idleOrWorks.resolve_left (due.busy (stays later ((le_max_right _ _).trans after)))
  exact (dueRank crates limit id).leadsTo due busy

/-- Every entry that the group has not read when the run starts, or that is added in the run, is
handed to `process_stream_entry` once the consumer goes on whenever it has something to do: however
many entries the workers add meanwhile, and however often they are restarted. -/
theorem messages_processed
    {path : Transition.PathWith (deploymentStep (n := n) crates limit)
      (Deployment.undisturbed crates)}
    {startUrl seed : Option String} {clock : Instant} {service : StorageService Url}
    {position time : Nat}
    (begins : path.state 0 = Deployment.begin startUrl seed clock service)
    (reading : service.consumer = .reading) (grouped : service.log.readTo = some position)
    (fair : path.Recurs fun deployment action =>
      deployment.service.Idle ∨ deployment.worksAt action)
    (unread : position ≤ id) (present : id < (path.state time).service.log.entries.length) :
    ∃ later, (path.state later).handles id (path.action later) := by
  have due : (path.state 0).service.Due id := by
    have start : (path.state 0).service = service := by rw [begins]; rfl
    rw [start]
    exact StorageService.due_of_reading reading grouped unread
  obtain ⟨later, _, handled⟩ := handled_of_due due fair present
  exact ⟨later, handled⟩

end Deployment

/-! ### The sample deployment -/

/-- A domain event is added, and the consumer reads, processes and acknowledges it. -/
def sampleHandling : List (ServiceAction SampleUrl) :=
  [.publish (sampleEntry sampleDomainEvent), .read .answered, .process DbFaults.none,
    .ack .answered]

theorem messages_processed_sample : ∃ path : Transition.PathWith
      (deploymentStep (n := 1) sampleCrates none) (Deployment.undisturbed sampleCrates),
    path.state 0 = sampleDeployment "https://a.example/" ∧
      ∃ later, (path.state later).handles 0 (path.action later) := by
  obtain ⟨final, ran, reading, drained, added⟩ : ∃ final : Deployment SampleUrl 1,
      Transition.run (deploymentStep sampleCrates none)
        (sampleHandling.map fun action => .crawl (.service action))
        (sampleDeployment "https://a.example/") = some final ∧
      final.service.consumer = .reading ∧ final.service.log.undelivered = [] ∧
      0 < final.service.log.entries.length := ⟨_, rfl, rfl, rfl, Nat.zero_lt_one⟩
  have permits : Transition.Permits (deploymentStep sampleCrates none)
      (Deployment.undisturbed sampleCrates)
      (sampleHandling.map fun action => .crawl (.service action))
      (sampleDeployment "https://a.example/" : Deployment SampleUrl 1) := by
    refine ⟨?_, fun next moved => ⟨?_, fun next' moved' => ⟨?_, fun next'' moved'' => ⟨?_, ?_⟩⟩⟩⟩
    · rintro _ ⟨⟩
      trivial
    · rintro _ ⟨⟩
      exact fun lost => by cases lost
    · rintro _ ⟨⟩
      cases moved
      cases moved'
      intro entry id batch same
      cases same
      decide +kernel
    · rintro _ ⟨⟩
      trivial
    · exact fun _ _ => trivial
  have quiet : final.undisturbed sampleCrates (.crawl (.tick 0)) := by
    rintro _ ⟨⟩
  obtain ⟨path, begins, _, ends⟩ :=
    Transition.PathWith.exists_of_run permits ran quiet (deploymentStep_tick_zero final)
  have fair : path.Recurs fun deployment action =>
      deployment.service.Idle ∨ deployment.worksAt action := fun time =>
    ⟨max time _, le_max_left _ _, Or.inl (by
      rw [(ends _ (le_max_right time _)).1]
      exact ⟨reading, drained⟩)⟩
  have present : 0 < (path.state sampleHandling.length).service.log.entries.length := by
    rw [(ends sampleHandling.length (by decide)).1]
    exact added
  exact ⟨path, begins, messages_processed begins rfl rfl fair (Nat.zero_le 0) present⟩

end PoliteCrawler
