/-
This file says when a URL is called a duplicate only if it was queued.

A URL is marked on the storage service and pushed to Redis after that. Between
the two it is in the hand of one party alone, and what that party gives up
nobody will find again: a link whose answer is lost, a push that fails for the
third time, the seeds whose one push fails, what a process has in hand when it
ends. A start with a start URL wipes what waits in the queue. Where no step gives
up a seen URL that has not been in the queue, every seen URL has been popped or
waits, over any number of restarts.
-/

import PoliteCrawler.DeploymentLedger

namespace PoliteCrawler

open Ledger (Event NoneStranded)

variable {Url : Type} {n : Nat}

section Permission

variable [DecidableEq Url] (crates : Crates Url)

/-- At rest, every seen URL waits in the queue or has been popped. -/
def Deployment.SeenIsQueued (deployment : Deployment Url n) : Prop :=
  deployment.AtRest → ∀ url ∈ deployment.crawler.shared.service.storage.seenUrls.seenUrls,
    url ∈ urlsOf crates (deployment.crawler.shared.service.queue.waiting ++ deployment.popped)

/-- The storage service goes on, and the step gives up no seen URL that has not been in the queue.
The mark of the start URL gives up nothing: it comes after the push. -/
def strandsNone (deployment : Deployment Url n) (action : DeploymentAction Url n) : Bool :=
  match deployment.launch, action with
  | .marking _, .launch _ => true
  | _, action =>
    storageStaysUp action && (deployment.ledger crates).spares (deployment.event crates action)

end Permission

/-! ### Steps -/

section Steps

variable [DecidableEq Url] {crates : Crates Url} {deployment next : Deployment Url n}
  {limit : Option (BitVec 64)}

omit [DecidableEq Url] in
theorem pushEvent_ne_wipe (texts : List String) (last : Bool) (call : Call) :
    pushEvent crates texts last call ≠ .wipe := by
  unfold pushEvent
  split
  · split <;> exact nofun
  · exact nofun

/-- Only the launch wipes the queue. -/
theorem event_ne_wipe (deployment : Deployment Url n) (action : CrawlerAction Url n) :
    deployment.event crates (.crawl action) ≠ .wipe := by
  cases action with
  | worker id input =>
    show workerEvent crates _ _ input ≠ .wipe
    unfold workerEvent
    split <;> first | exact pushEvent_ne_wipe _ _ _ | exact nofun
  | service action =>
    show serviceEvent crates _ action ≠ .wipe
    unfold serviceEvent
    split
    · split
      · split <;> exact nofun
      · exact nofun
    · split
      · exact pushEvent_ne_wipe _ _ _
      · exact nofun
    · exact nofun
  | _ => exact nofun

/-- Every seen URL is in hand or has been in the queue, and so has the start URL when it is to be
marked. -/
structure Deployment.KeepsSeen (crates : Crates Url) (deployment : Deployment Url n) : Prop where
  stranded : NoneStranded (deployment.ledger crates)
  pushed : ∀ url, deployment.launch = .marking url → url ∈ (deployment.ledger crates).placed

/-- The start URL is placed by its push, and stays so until it is marked. -/
theorem pushed_of_moved (exact : crates.FilterExact) {action : DeploymentAction Url n}
    (keeps : deployment.KeepsSeen crates) (up : storageStaysUp action = true)
    (moved : deploymentStep crates limit action deployment = some next) {url : Url}
    (marking : next.launch = .marking url) : url ∈ (next.ledger crates).placed := by
  have moves := deploymentStep_ledger exact moved up
  cases action with
  | crawl action =>
    obtain ⟨_, same, _⟩ := crawlerStep_of_moved moved
    exact Multiset.mem_of_le (moves.placed (event_ne_wipe deployment action))
      (keeps.pushed url (same ▸ marking))
  | launch input =>
    obtain ⟨shared, stepped⟩ := launchStep_of_moved moved
    rcases launchStep_pending stepped with settled | ⟨other, pushing, rfl, marks⟩
    · rw [marking] at settled
      cases settled
    · obtain rfl : other = url := by
        rw [marking] at marks
        exact (Launch.marking.inj marks).symm
      have event : deployment.event crates (.launch (.redis .answered)) = .enter {other} false := by
        rw [Deployment.event, pushing]
        rfl
      rw [event] at moves
      exact moves.placed_of_enter (Multiset.mem_singleton_self other)
  | restart startUrl seed =>
    cases moved
    cases marking

theorem deploymentStep_keepsSeen (exact : crates.FilterExact) {action : DeploymentAction Url n}
    (keeps : deployment.KeepsSeen crates) (allowed : strandsNone crates deployment action = true)
    (moved : deploymentStep crates limit action deployment = some next) :
    next.KeepsSeen crates := by
  have up : storageStaysUp action = true := by
    unfold strandsNone at allowed
    split at allowed
    · rfl
    · exact (Bool.and_eq_true_iff.mp allowed).1
  refine ⟨?_, fun url marking => pushed_of_moved exact keeps up moved marking⟩
  refine keeps.stranded.moved (deploymentStep_ledger exact moved up) ?_
  unfold strandsNone at allowed
  split at allowed
  · rename_i url input marking
    have placed := keeps.pushed url marking
    rw [Deployment.event, marking]
    cases input with
    | rpc faults call =>
      show (_ || decide (url ∈ (deployment.ledger crates).placed)) = true
      rw [decide_eq_true placed, Bool.or_true]
    | _ => rfl
  · exact (Bool.and_eq_true_iff.mp allowed).2

/-- In a run whose steps give up no seen URL that has not been in the queue, every URL that is seen
at rest waits in the queue or has been popped. -/
theorem seen_is_queued (exact : crates.FilterExact) {startUrl seed : Option String}
    {clock : Instant} {service : StorageService Url}
    (unseen : service.storage.seenUrls.seenUrls = [])
    (reached : Transition.ReachesWith (deploymentStep crates limit)
      (fun deployment action => strandsNone crates deployment action = true)
      (Deployment.begin startUrl seed clock service) deployment) :
    deployment.SeenIsQueued crates := by
  have start : (Deployment.begin startUrl seed clock service : Deployment Url n).KeepsSeen
      crates := by
    refine ⟨fun url marked => ?_, nofun⟩
    have member : url ∈ service.storage.seenUrls.seenUrls := List.mem_toFinset.mp marked
    rw [unseen] at member
    cases member
  have keeps : deployment.KeepsSeen crates :=
    reached.invariant start fun before action after keeps allowed moved =>
      deploymentStep_keepsSeen exact keeps allowed moved
  intro rest url seen
  have placed : url ∈ (deployment.ledger crates).placed := by
    refine (keeps.stranded url (List.mem_toFinset.mpr seen)).resolve_left fun held => ?_
    have held : url ∈ deployment.hands crates := held
    rw [rest.hands] at held
    exact Multiset.notMem_zero url held
  rw [urlsOf_append]
  exact List.mem_append.mpr ((Multiset.mem_add.mp placed).imp Multiset.mem_coe.mp Multiset.mem_coe.mp)

end Steps

/-! ### The sample web -/

/-- The worker finds the second site on the home page and pushes it with the third attempt. -/
def sampleAttempts (last : Call) : List (DeploymentAction SampleUrl 1) :=
  sampleWorks (sampleTake ++ samplePageTask ++ [.rpc DbFaults.none .answered, .proceed,
    .redis .failed, .redis .failed, .redis last])

/-- Two attempts fail and the third has an effect; the second site waits in the queue. -/
theorem seen_is_queued_sample : ∃ deployment : Deployment SampleUrl 1,
    Transition.run (deploymentStep sampleCrates none) (sampleLaunch 1 ++ sampleAttempts .lost)
      (sampleDeployment "https://a.example/") = some deployment ∧
    deployment.SeenIsQueued sampleCrates := by
  obtain ⟨deployment, ran⟩ : ∃ deployment : Deployment SampleUrl 1,
      Transition.runWith (deploymentStep sampleCrates none)
        (fun deployment action => strandsNone sampleCrates deployment action = true)
        (sampleLaunch 1 ++ sampleAttempts .lost) (sampleDeployment "https://a.example/") =
          some deployment := ⟨_, rfl⟩
  exact ⟨deployment, Transition.run_of_runWith ran,
    seen_is_queued filterExact_sample rfl (Transition.reachesWith_of_runWith ran)⟩

/-- All three attempts fail: the second site is seen, and was never queued. -/
theorem seen_never_queued : ∃ deployment : Deployment SampleUrl 1,
    Transition.ReachesWith (deploymentStep sampleCrates none)
      (fun _ action => storageStaysUp action = true) (sampleDeployment "https://a.example/")
      deployment ∧
    ¬ deployment.SeenIsQueued sampleCrates := by
  obtain ⟨deployment, ran⟩ : ∃ deployment : Deployment SampleUrl 1,
      Transition.runWith (deploymentStep sampleCrates none)
        (fun _ action => storageStaysUp action = true) (sampleLaunch 1 ++ sampleAttempts .failed)
        (sampleDeployment "https://a.example/") = some deployment := ⟨_, rfl⟩
  have state : (Transition.runWith (deploymentStep sampleCrates none)
      (fun _ action => storageStaysUp action = true) (sampleLaunch 1 ++ sampleAttempts .failed)
      (sampleDeployment "https://a.example/")).map (fun deployment =>
        (deployment.launch.filtered, deployment.crawler.shared.service.consumer.filtered,
          (deployment.crawler.workers 0).filtered,
          deployment.crawler.shared.service.storage.seenUrls.seenUrls,
          urlsOf sampleCrates
            (deployment.crawler.shared.service.queue.waiting ++ deployment.popped))) =
      some ([], [], [], [.other, .home], [.home]) := by
    decide +kernel
  rw [ran, Option.map_some, Option.some.injEq] at state
  simp only [Prod.mk.injEq] at state
  obtain ⟨launch, consumer, worker, seen, queued⟩ := state
  refine ⟨deployment, Transition.reachesWith_of_runWith ran, fun honest => ?_⟩
  have rest : deployment.AtRest := ⟨launch, consumer, fun id => Subsingleton.elim 0 id ▸ worker⟩
  have member := honest rest .other (seen ▸ List.mem_cons_self)
  rw [queued] at member
  exact absurd member (by decide)

end PoliteCrawler
