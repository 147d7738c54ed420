/-
This file says when no URL is pushed as new work twice.

Workers and the consumer push a URL only when `insert_url` answers that it is
new, so between them every URL enters the queue once, whatever they do in which
order. The launch does not look at the answer: it pushes a seed that is written
twice, in one spelling or in two, twice, and a seed or start URL that the
consumer has pushed once more. Where what it pushes is new, every URL enters
once.
-/

import PoliteCrawler.DeploymentLedger

namespace PoliteCrawler

open Ledger (Event Once TakesNew)

variable {Url : Type} {n : Nat}

/-- No URL was pushed as new work twice. -/
def Deployment.EntersOnce (crates : Crates Url) (deployment : Deployment Url n) : Prop :=
  (urlsOf crates deployment.entered).Nodup

/-! ### The runs in which every URL is new -/

def Input.answered : Input Url → Bool
  | .redis call | .rpc _ call => call = .answered
  | _ => true

/-- No call fails that notes, pushes or pops a URL, and the processes go on. -/
def callsAnswered : DeploymentAction Url n → Bool
  | .crawl (.worker _ input) | .launch input => input.answered
  | .crawl (.service (.pushSitemap call)) => call = .answered
  | .crawl (.service action) => staysUp action
  | .crawl _ => true
  | .restart _ _ => false

section Permission

variable [DecidableEq Url] (crates : Crates Url)

/-- The step of the launch comes to a seed or start URL that is new, and the step of the consumer
does not come to the start URL between its push and its mark. -/
def Deployment.launchesNew (deployment : Deployment Url n) : DeploymentAction Url n → Bool
  | .launch _ =>
    let seen := deployment.crawler.shared.service.storage.seenUrls.seenUrls
    match deployment.launch with
    | .pushing url => url ∉ seen
    | .seeding (text :: _) _ => (urlsOf crates [text]).all (· ∉ seen)
    | _ => true
  | .crawl (.service .offer) =>
    match deployment.launch, deployment.crawler.shared.service.consumer with
    | .marking url, .offering _ (sitemap :: _) _ => url ∉ urlsOf crates [sitemap]
    | _, _ => true
  | _ => true

/-- The step of a run in which no call fails and what the launch pushes is new. -/
def entersNew (deployment : Deployment Url n) (action : DeploymentAction Url n) : Bool :=
  callsAnswered action && deployment.launchesNew crates action

end Permission

/-! ### Steps -/

section Steps

variable [DecidableEq Url] {crates : Crates Url} {ledger : Ledger Url} {pending : Option Url}

omit [DecidableEq Url] in
theorem pushEvent_takesNew {texts : List String} {last : Bool} {call : Call}
    (answered : call = .answered) : TakesNew pending ledger (pushEvent crates texts last call) := by
  subst answered
  rfl

/-- A worker keeps a link only when it is new. -/
theorem workerEvent_takesNew {service : StorageService Url} {worker : Worker Url}
    {input : Input Url} (marked : ledger.marked = service.storage.seenUrls.seenUrls.toFinset)
    (answered : input.answered = true) :
    TakesNew none ledger (workerEvent crates service worker input) := by
  unfold workerEvent
  split
  · trivial
  · trivial
  · rename_i link rest filtered faults call
    obtain rfl : call = .answered := of_decide_eq_true answered
    intro takes
    have fresh : link ∉ service.storage.seenUrls.seenUrls :=
      of_decide_eq_true (Bool.and_eq_true_iff.mp takes).2
    refine ⟨rfl, ?_, nofun⟩
    rw [marked, List.mem_toFinset]
    exact fresh
  · exact pushEvent_takesNew (of_decide_eq_true answered)
  · trivial

/-- The consumer keeps a sitemap only when it is new. -/
theorem serviceEvent_takesNew {service : StorageService Url} {action : ServiceAction Url}
    (marked : ledger.marked = service.storage.seenUrls.seenUrls.toFinset)
    (answered : callsAnswered (.crawl (.service action) : DeploymentAction Url n) = true)
    (beside : ∀ url id sitemap sitemaps batch,
      action = .offer → service.consumer = .offering id (sitemap :: sitemaps) batch →
      pending = some url → url ∉ urlsOf crates [sitemap]) :
    TakesNew pending ledger (serviceEvent crates service action) := by
  unfold serviceEvent
  split
  · split
    · rename_i id sitemap sitemaps batch offering
      split
      · rename_i url parsed
        intro takes
        refine ⟨rfl, ?_, fun same => ?_⟩
        · rw [marked, List.mem_toFinset]
          exact of_decide_eq_true takes
        · refine beside url id sitemap sitemaps batch rfl offering same ?_
          rw [urlsOf_singleton parsed]
          exact List.mem_singleton_self url
      · trivial
    · trivial
  · split
    · exact pushEvent_takesNew (of_decide_eq_true answered)
    · trivial
  · trivial

/-- The launch keeps every seed. -/
theorem launchEvent_takesNew {launch : Launch Url} {input : Input Url} {seen : List Url}
    (marked : ledger.marked = seen.toFinset) (answered : input.answered = true)
    (new : ∀ text left filtered, launch = .seeding (text :: left) filtered →
      (urlsOf crates [text]).all (· ∉ seen) = true)
    (quiet : ∀ url, launch ≠ .pushing url) :
    TakesNew none ledger (launchEvent crates launch input) := by
  unfold launchEvent
  split
  · split <;> trivial
  · rename_i url call
    exact absurd rfl (quiet url)
  · exact nofun
  · rename_i text left filtered faults call
    split
    · rename_i url parsed
      obtain rfl : call = .answered := of_decide_eq_true answered
      have fresh := new text left filtered rfl
      rw [urlsOf_singleton parsed, List.all_cons, List.all_nil, Bool.and_true,
        decide_eq_true_eq] at fresh
      intro _
      refine ⟨rfl, ?_, nofun⟩
      rw [marked, List.mem_toFinset]
      exact fresh
    · trivial
  · exact pushEvent_takesNew (of_decide_eq_true answered)
  · trivial

/-- What is pushed or in hand is so once, and seen. -/
def Deployment.OnceEntered (crates : Crates Url) (deployment : Deployment Url n) : Prop :=
  Once deployment.launch.pending (deployment.ledger crates)

variable {deployment next : Deployment Url n} {limit : Option (BitVec 64)}

/-- A step of the launch keeps the law: a seed is new, and the start URL is new and settled by its
mark. -/
theorem launch_onceEntered (exact : crates.FilterExact) {input : Input Url}
    (once : deployment.OnceEntered crates)
    (allowed : entersNew crates deployment (.launch input) = true)
    (moved : deploymentStep crates limit (.launch input) deployment = some next) :
    next.OnceEntered crates := by
  have moves := deploymentStep_ledger exact moved rfl
  obtain ⟨answered, new⟩ := Bool.and_eq_true_iff.mp allowed
  obtain ⟨shared, stepped⟩ := launchStep_of_moved moved
  have pending_of_step (elsewhere : ∀ url, deployment.launch ≠ .pushing url) :
      next.launch.pending = none := by
    refine (launchStep_pending stepped).resolve_right ?_
    rintro ⟨url, pushing, _⟩
    exact elsewhere url pushing
  unfold Deployment.OnceEntered at once ⊢
  cases stage : deployment.launch with
  | pushing url =>
    rw [stage] at stepped once
    simp only [Deployment.launchesNew, stage, decide_eq_true_eq] at new
    cases input with
    | redis call =>
      obtain rfl : call = .answered := of_decide_eq_true answered
      have event : deployment.event crates (.launch (.redis .answered)) = .enter {url} false := by
        rw [Deployment.event, stage]
        rfl
      rw [event] at moves
      rw [← (Prod.mk.inj (Option.some.inj stepped)).2]
      exact Once.enterEarly once (fun marked => new (List.mem_toFinset.mp marked)) moves
    | _ => cases stepped
  | marking url =>
    have settled := pending_of_step (fun other pushing => by cases stage.symm.trans pushing)
    rw [stage] at stepped once
    obtain ⟨⟨answer, service⟩, called, _⟩ := Option.map_eq_some_iff.mp stepped
    obtain ⟨faults, call, rfl, _⟩ := rpc_serveInsert (crates.url.parse_asStr url) called
    obtain rfl : call = .answered := of_decide_eq_true answered
    have event : deployment.event crates (.launch (.rpc faults .answered)) = .note url true false := by
      rw [Deployment.event, stage]
      rfl
    rw [event] at moves
    rw [settled]
    exact Once.settle once moves
  | _ =>
    have settled := pending_of_step (fun other pushing => by cases stage.symm.trans pushing)
    have before : deployment.launch.pending = none := by
      rw [stage]
      rfl
    rw [settled]
    rw [before] at once
    refine once.moved moves (launchEvent_takesNew rfl answered (fun text left filtered seeding => ?_)
      fun url other => ?_)
    · simpa only [Deployment.launchesNew, seeding] using new
    · cases stage.symm.trans other

theorem crawl_onceEntered (exact : crates.FilterExact) {action : CrawlerAction Url n}
    (once : deployment.OnceEntered crates)
    (allowed : entersNew crates deployment (.crawl action) = true)
    (moved : deploymentStep crates limit (.crawl action) deployment = some next) :
    next.OnceEntered crates := by
  obtain ⟨answered, new⟩ := Bool.and_eq_true_iff.mp allowed
  obtain ⟨enabled, same, _⟩ := crawlerStep_of_moved moved
  unfold Deployment.OnceEntered at once ⊢
  rw [same]
  cases action with
  | worker id input =>
    have moves := deploymentStep_ledger exact moved rfl
    rw [Launch.pending_of_isRunning enabled] at once ⊢
    exact once.moved moves (workerEvent_takesNew rfl answered)
  | service action =>
    have up : staysUp action = true := by
      cases action <;> first | rfl | exact answered
    refine once.moved (deploymentStep_ledger exact moved up)
      (serviceEvent_takesNew rfl answered ?_)
    intro url id sitemap sitemaps batch offers offering pending
    subst offers
    have marking := Launch.eq_of_pending pending
    simpa only [Deployment.launchesNew, marking, offering, decide_eq_true_eq] using new
  | monitor => exact once.moved (deploymentStep_ledger exact moved rfl) trivial
  | interrupt => exact once.moved (deploymentStep_ledger exact moved rfl) trivial
  | tick elapsed => exact once.moved (deploymentStep_ledger exact moved rfl) trivial

/-- In a run in which no call fails and what the launch pushes is new, no URL is pushed as new
work twice. -/
theorem enters_once (exact : crates.FilterExact) {startUrl seed : Option String} {clock : Instant}
    {service : StorageService Url} (idle : service.consumer.filtered = [])
    (reached : Transition.ReachesWith (deploymentStep crates limit)
      (fun deployment action => entersNew crates deployment action = true)
      (Deployment.begin startUrl seed clock service) deployment) :
    deployment.EntersOnce crates := by
  have start : (Deployment.begin startUrl seed clock service : Deployment Url n).OnceEntered
      crates := by
    have nothing : ((Deployment.begin startUrl seed clock service : Deployment Url n).ledger
        crates).entered + (Deployment.begin startUrl seed clock service : Deployment Url n).hands
          crates = 0 :=
      (zero_add _).trans (Deployment.AtRest.hands crates ⟨rfl, idle, fun _ => rfl⟩)
    exact ⟨nothing ▸ Multiset.nodup_zero, fun url member => absurd (nothing ▸ member)
      (Multiset.notMem_zero url)⟩
  have once : deployment.OnceEntered crates :=
    reached.invariant start fun before action after once allowed moved => by
      cases action with
      | crawl action => exact crawl_onceEntered exact once allowed moved
      | launch input => exact launch_onceEntered exact once allowed moved
      | restart startUrl seed => cases allowed
  exact (Multiset.nodup_add.mp once.nodup).1

end Steps

/-! ### The sample web -/

/-- The seeds are the two home pages, and the worker finds the second on the first. -/
theorem enters_once_sample : ∃ deployment : Deployment SampleUrl 1,
    Transition.run (deploymentStep sampleCrates none)
      (sampleLaunch 2 ++ sampleWorks (sampleTake ++ samplePageTask ++ [.rpc DbFaults.none .answered]))
      (sampleDeployment "https://a.example/ https://b.example/") = some deployment ∧
    deployment.EntersOnce sampleCrates := by
  obtain ⟨deployment, ran⟩ : ∃ deployment : Deployment SampleUrl 1,
      Transition.runWith (deploymentStep sampleCrates none)
        (fun deployment action => entersNew sampleCrates deployment action = true)
        (sampleLaunch 2 ++
          sampleWorks (sampleTake ++ samplePageTask ++ [.rpc DbFaults.none .answered]))
        (sampleDeployment "https://a.example/ https://b.example/") = some deployment := ⟨_, rfl⟩
  exact ⟨deployment, Transition.run_of_runWith ran,
    enters_once filterExact_sample rfl (Transition.reachesWith_of_runWith ran)⟩

/-- A seed that is written twice, in two spellings, is pushed twice, though no call fails. -/
theorem seed_enters_twice : ∃ deployment : Deployment SampleUrl 1,
    Transition.ReachesWith (deploymentStep sampleCrates none)
      (fun _ action => callsAnswered action = true)
      (sampleDeployment "https://b.example/ https://b.example") deployment ∧
    ¬ deployment.EntersOnce sampleCrates := by
  obtain ⟨deployment, ran⟩ : ∃ deployment : Deployment SampleUrl 1,
      Transition.runWith (deploymentStep sampleCrates none)
        (fun _ action => callsAnswered action = true) (sampleLaunch 2)
        (sampleDeployment "https://b.example/ https://b.example") = some deployment := ⟨_, rfl⟩
  have entered : (Transition.runWith (deploymentStep sampleCrates none)
      (fun _ action => callsAnswered action = true) (sampleLaunch 2)
      (sampleDeployment "https://b.example/ https://b.example")).map
        (fun deployment => urlsOf sampleCrates deployment.entered) = some [.other, .other] := by
    decide +kernel
  rw [ran, Option.map_some, Option.some.injEq] at entered
  refine ⟨deployment, Transition.reachesWith_of_runWith ran, fun once => ?_⟩
  rw [Deployment.EntersOnce, entered] at once
  exact absurd once (by decide)

end PoliteCrawler
