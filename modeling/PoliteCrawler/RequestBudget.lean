/-
This file bounds how often a crawl asks the network for a URL.

A URL that is pushed is popped once, and the task it becomes goes to the network
once, with the retries of that download: for the robots.txt of its site, for its
sitemap or for its page. A URL the rate limiter refuses goes back to the queue
and is popped again, but is not asked for in between. So the URLs that wait and
the URLs that workers are still to ask for are a credit, every push of new work
adds to it, and every request takes its URL off. That holds over any
interleaving and any number of restarts: a process that ends takes what its
workers were to ask for with it.
-/

import PoliteCrawler.AmortizedRuns
import PoliteCrawler.PartyLedger
import Mathlib.Algebra.Order.Group.Multiset

namespace PoliteCrawler

variable {Url : Type} {n : Nat}

/-! ### Texts -/

theorem waiting_pushTasks (service : StorageService Url) (texts : List String) (call : Call) :
    (pushTasks service texts call).queue.waiting =
      service.queue.waiting ++ call.effect texts := by
  unfold pushTasks Call.effect
  split
  · exact (List.append_nil _).symm
  · rfl

section Texts

variable (crates : Crates Url)

/-- The URLs that the texts parse to, in any order. -/
def urlsIn (texts : List String) : Multiset Url := urlsOf crates texts

@[simp] theorem urlsIn_nil : urlsIn crates [] = 0 := rfl

theorem urlsIn_append (texts more : List String) :
    urlsIn crates (texts ++ more) = urlsIn crates texts + urlsIn crates more := by
  rw [urlsIn, urlsOf_append, ← Multiset.coe_add]
  rfl

@[simp] theorem urlsIn_asStr (url : Url) : urlsIn crates [crates.url.asStr url] = {url} :=
  congrArg _ (urlsOf_singleton (crates.url.parse_asStr url))

variable {crates} in
theorem urlsIn_cons {text : String} {url : Url} (parsed : crates.url.parse text = .ok url)
    (rest : List String) : urlsIn crates (text :: rest) = {url} + urlsIn crates rest := by
  have single : urlsIn crates [text] = {url} := congrArg _ (urlsOf_singleton parsed)
  rw [← List.singleton_append, urlsIn_append, single]

theorem urlsIn_rest_le (text : String) (rest : List String) :
    urlsIn crates rest ≤ urlsIn crates (text :: rest) := by
  rw [← List.singleton_append, urlsIn_append]
  exact Multiset.le_add_left _ _

theorem urlsIn_effect_le (texts : List String) (call : Call) :
    urlsIn crates (call.effect texts) ≤ urlsIn crates texts := by
  unfold Call.effect
  split
  · exact Multiset.zero_le _
  · exact le_rfl

end Texts

/-! ### Requests -/

/-- How often a task is still to go to the network. -/
@[simp] def Task.requestsLeft : Task Url → Nat
  | .checking | .fetchingRobots | .awaiting _ | .sleeping _ _ | .askingSitemapDelay _
  | .fetchingSitemap | .askingDelay _ _ | .fetchingPage _ => 1
  | .updatingDelay _ | .savingDomain _ | .savingPage _ _ | .countingPage _ | .inserting _ _
  | .pushing _ _ | .adding _ => 0

/-- A step goes to the network when the network answers it. -/
@[simp] def Input.requests : Input Url → Nat
  | .web _ _ => 1
  | _ => 0

/-- The URL that a worker is still to go to the network for. -/
def Worker.toAsk : Worker Url → Multiset Url
  | .arrived url | .acquiring url _ _ | .requeueing url => {url}
  | .working url _ task => task.requestsLeft • {url}
  | _ => 0

/-- The URL that a step of a worker goes to the network for. -/
def Worker.asked : Worker Url → Input Url → Multiset Url
  | .working url _ _, input => input.requests • {url}
  | _, _ => 0

/-- The URL that a step of the deployment goes to the network for. -/
def askedBy : DeploymentAction Url n → Deployment Url n → Multiset Url
  | .crawl (.worker id input), deployment => (deployment.crawler.workers id).asked input
  | _, _ => 0

/-- The URLs that wait, and those that workers are still to ask for. -/
def Crawler.credit (crates : Crates Url) (crawler : Crawler Url n) : Multiset Url :=
  (∑ id, (crawler.workers id).toAsk) + urlsIn crates crawler.shared.service.queue.waiting

/-! ### Workers -/

section Workers

variable [DecidableEq Url] {crates : Crates Url} {shared next : Shared Url}
  {worker after : Worker Url} {input : Input Url}

/-- A task goes to the network no more often than it is to. -/
theorem TaskMoved.requests {url : Url} {ticket : Nat} {task : Task Url}
    (moved : TaskMoved crates url ticket shared task input next worker) :
    (∃ left : Task Url, worker = .working url ticket left ∧
        input.requests + left.requestsLeft ≤ task.requestsLeft) ∨
      (∃ ends, worker = .dropping ends) ∧ input.requests ≤ task.requestsLeft := by
  cases moved with
  | domainSaved goesOn | sitemapDelayAsked _ goesOn | delayAsked _ goesOn | pageSaved _ goesOn =>
    rcases goesOn with rfl | ⟨_, rfl⟩
    · exact Or.inl ⟨_, rfl, by simp⟩
    · exact Or.inr ⟨⟨_, rfl⟩, by simp⟩
  | pageFetched _ goesOn =>
    rcases goesOn with rfl | rfl <;> exact Or.inl ⟨_, rfl, by simp⟩
  | linkInserted _ _ => exact Or.inl ⟨_, rfl, le_rfl⟩
  | someFound _ => exact Or.inl ⟨_, rfl, le_rfl⟩
  | pushFailed _ goesOn =>
    rcases goesOn with ⟨_, rfl⟩ | rfl
    · exact Or.inr ⟨⟨_, rfl⟩, le_rfl⟩
    · exact Or.inl ⟨_, rfl, le_rfl⟩
  | checkedUnknown | checkedSitemap | checkedPage | robotsFetched | delayUpdated | awaited | slept
  | sitemapFetched | pageCounted | pushed => exact Or.inl ⟨_, rfl, by simp⟩
  | _ => exact Or.inr ⟨⟨_, rfl⟩, by simp⟩

/-- A task changes the queue by what it pushes as new work. -/
theorem TaskMoved.waiting {url : Url} {ticket : Nat} {task : Task Url}
    (moved : TaskMoved crates url ticket shared task input next worker) :
    next.service.queue.waiting =
      shared.service.queue.waiting ++ (Worker.working url ticket task).enters input := by
  cases task with
  | pushing attempt filtered => cases moved <;> exact waiting_pushTasks _ _ _
  | _ =>
    rw [moved.queue_eq (by rintro _ _ ⟨⟩)]
    exact (List.append_nil _).symm

/-- What a task asks for it was to ask for. -/
theorem TaskMoved.pays {url : Url} {ticket : Nat} {task : Task Url}
    (moved : TaskMoved crates url ticket shared task input next worker) :
    (Worker.working url ticket task).asked input + worker.toAsk ≤
      (Worker.working url ticket task).toAsk := by
  rcases moved.requests with ⟨left, rfl, fewer⟩ | ⟨⟨ends, rfl⟩, fewer⟩
  · show input.requests • {url} + left.requestsLeft • {url} ≤ task.requestsLeft • ({url} : Multiset Url)
    rw [← add_nsmul]
    exact nsmul_le_nsmul_left (Multiset.zero_le _) fewer
  · show input.requests • {url} + 0 ≤ task.requestsLeft • ({url} : Multiset Url)
    rw [add_zero]
    exact nsmul_le_nsmul_left (Multiset.zero_le _) fewer

/-- What a worker asks for it was to ask for, and what it is to ask for comes from the queue. -/
theorem WorkerMoved.pays (moved : WorkerMoved crates shared worker input next after) :
    worker.asked input + urlsIn crates next.service.queue.waiting + after.toAsk ≤
      worker.toAsk + (urlsIn crates shared.service.queue.waiting +
        urlsIn crates (worker.enters input)) := by
  cases moved with
  | looped goesOn =>
    rcases goesOn with rfl | rfl <;> simp [Worker.asked, Worker.toAsk, Worker.enters]
  | popFailed _ => simp [Worker.asked, Worker.toAsk, Worker.enters]
  | @popLost text rest waiting =>
    simpa [Worker.asked, Worker.toAsk, Worker.enters, waiting, Shared.dequeue]
      using urlsIn_rest_le crates text rest
  | @popUnparsed text rest _ waiting _ =>
    simpa [Worker.asked, Worker.toAsk, Worker.enters, waiting, Shared.dequeue]
      using urlsIn_rest_le crates text rest
  | @popped text rest url waiting parsed =>
    simp [Worker.asked, Worker.toAsk, Worker.enters, waiting, Shared.dequeue,
      urlsIn_cons parsed rest, add_comm]
  | stamped _ | granted _ | refused =>
    simp [Worker.asked, Worker.toAsk, Worker.enters, Shared.grant, add_comm]
  | strayed _ =>
    simpa [Worker.asked, Worker.toAsk, Worker.enters] using Multiset.le_cons_self _ _
  | @requeued url =>
    simp [Worker.asked, Worker.toAsk, Worker.enters, waiting_pushTasks, urlsIn_append, Call.effect,
      add_comm]
  | @requeueFailed url call _ =>
    have effect := urlsIn_effect_le crates [crates.url.asStr url] call
    rw [urlsIn_asStr] at effect
    simpa [Worker.asked, Worker.toAsk, Worker.enters, waiting_pushTasks, urlsIn_append, add_comm]
      using effect
  | released owed =>
    rcases owed with ⟨rfl, rfl⟩ | ⟨rfl, rfl⟩ | ⟨_, rfl, rfl | rfl⟩ <;>
      simp [Worker.asked, Worker.toAsk, Worker.enters, Shared.release]
  | @task url ticket task _ _ _ moved =>
    rw [moved.waiting, urlsIn_append, add_right_comm]
    gcongr
    exact moved.pays

end Workers

/-! ### The other parties -/

section Parties

variable {crates : Crates Url}

/-- Only the consumer's pushes change what waits. -/
theorem ServiceMoved.waiting {service next : StorageService Url} {action : ServiceAction Url}
    (moved : ServiceMoved crates service action next) :
    next.queue.waiting = service.queue.waiting ++ service.consumer.enters action := by
  cases moved with
  | @pushed call id attempt sitemap sitemaps consumer batch pushing performed _ =>
    have effect : service.consumer.enters (.pushSitemap call : ServiceAction Url) = [sitemap] := by
      rw [pushing]
      exact if_neg performed
    rw [effect]
    rfl
  | @pushFailed id attempt sitemap sitemaps consumer batch pushing _ =>
    rw [pushing]
    exact (List.append_nil _).symm
  | _ =>
    rw [Consumer.enters_eq_nil (fun _ same => by cases same)]
    exact (List.append_nil _).symm

/-- Only the launch's own pushes add to what waits. -/
theorem launchStep_pays {shared next : Shared Url} {launch after : Launch Url} {input : Input Url}
    (moved : launchStep crates input shared launch = some (next, after)) :
    urlsIn crates next.service.queue.waiting ≤
      urlsIn crates shared.service.queue.waiting + urlsIn crates (launch.enters crates input) := by
  have noted : ∀ {text : String} {answer : Outcome Bool} {service : StorageService Url},
      rpc shared.service input (serveInsert crates text) = some (answer, service) →
      urlsIn crates service.queue.waiting ≤ urlsIn crates shared.service.queue.waiting +
        urlsIn crates (launch.enters crates input) := by
    intro text answer service called
    obtain ⟨faults, call, rfl, served, _⟩ := rpc_eq_some called
    have looked := lookedUp_of_served served
      (serveInsert_lookedUp crates shared.service text faults)
    rw [looked.state.2]
    exact Multiset.le_add_right _ _
  have pushed : ∀ (texts : List String) (call : Call),
      urlsIn crates (pushTasks shared.service texts call).queue.waiting ≤
        urlsIn crates shared.service.queue.waiting + urlsIn crates (call.effect texts) := by
    intro texts call
    rw [waiting_pushTasks, urlsIn_append]
  cases launch with
  | checking startUrl seed =>
    cases input <;> cases moved
    exact Multiset.le_add_right _ _
  | cleaning startUrl =>
    cases input <;> cases moved
    unfold cleanQueue
    split
    · exact Multiset.le_add_right _ _
    · exact Multiset.zero_le _
  | pushing url =>
    cases input <;> cases moved
    exact pushed _ _
  | marking url =>
    obtain ⟨⟨answer, service⟩, called, made⟩ := Option.map_eq_some_iff.mp moved
    obtain ⟨rfl, _⟩ := Prod.mk.inj made
    exact noted called
  | seeding left filtered =>
    cases left with
    | nil =>
      cases filtered <;> cases input <;> cases moved
      · exact Multiset.le_add_right _ _
      · exact pushed _ _
    | cons text left =>
      obtain ⟨⟨answer, service⟩, called, made⟩ := Option.map_eq_some_iff.mp moved
      obtain ⟨rfl, _⟩ := Prod.mk.inj made
      exact noted called
  | counting =>
    cases input <;> cases moved
    exact Multiset.le_add_right _ _
  | running => cases moved
  | ended => cases moved

end Parties

/-! ### The deployment -/

section Deployments

variable [DecidableEq Url] {crates : Crates Url} {limit : Option (BitVec 64)}
  {deployment next : Deployment Url n}

/-- What a step of the crawl asks for is paid by the credit, or by what was pushed as new work. -/
theorem CrawlerMoved.pays {action : CrawlerAction Url n} {crawler : Crawler Url n}
    (moved : CrawlerMoved crates deployment.crawler action crawler) :
    askedBy (.crawl action) deployment + crawler.credit crates ≤
      deployment.crawler.credit crates + urlsIn crates (enteredBy deployment.crawler action) := by
  cases moved with
  | @worker id input shared worker moved =>
    have pool := Transition.add_sum_update_le deployment.crawler.workers id worker Worker.toAsk
      moved.pays
    rw [← add_assoc (∑ other, (deployment.crawler.workers other).toAsk), add_right_comm,
      add_assoc] at pool
    exact pool
  | @service action service moved =>
    show 0 + ((∑ id, (deployment.crawler.workers id).toAsk) + urlsIn crates service.queue.waiting) ≤
      (∑ id, (deployment.crawler.workers id).toAsk) +
          urlsIn crates deployment.crawler.shared.service.queue.waiting +
        urlsIn crates (deployment.crawler.shared.service.consumer.enters action)
    rw [zero_add, add_assoc, moved.waiting, urlsIn_append]
  | monitored _ _ | interrupted | ticked _ => exact (zero_add _).le.trans (Multiset.le_add_right _ _)

/-- What a step asks for is paid by the credit, or by what was pushed as new work. -/
theorem deploymentStep_pays {action : DeploymentAction Url n}
    (moved : deploymentStep crates limit action deployment = some next) :
    askedBy action deployment +
        (next.crawler.credit crates + urlsIn crates deployment.entered) ≤
      deployment.crawler.credit crates + urlsIn crates next.entered := by
  cases action with
  | crawl action =>
    have entered : next.entered = deployment.entered ++ enteredBy deployment.crawler action := by
      simp only [deploymentStep] at moved
      split at moved
      · obtain ⟨crawler, _, rfl⟩ := Option.map_eq_some_iff.mp moved
        rfl
      · cases moved
    have paid := (crawlerStep_moved crates (crawlerStep_of_moved moved).2.2).pays
    rw [entered, urlsIn_append, ← add_assoc, add_comm (urlsIn crates deployment.entered),
      ← add_assoc]
    gcongr
  | launch input =>
    obtain ⟨⟨shared, launch⟩, stepped, rfl⟩ := Option.map_eq_some_iff.mp moved
    have paid := launchStep_pays stepped
    show 0 + ((∑ id, (deployment.crawler.workers id).toAsk) +
        urlsIn crates shared.service.queue.waiting + urlsIn crates deployment.entered) ≤
      (∑ id, (deployment.crawler.workers id).toAsk) +
          urlsIn crates deployment.crawler.shared.service.queue.waiting +
        urlsIn crates (deployment.entered ++ deployment.launch.enters crates input)
    rw [zero_add, urlsIn_append, add_comm (urlsIn crates deployment.entered), ← add_assoc,
      add_assoc (∑ id, (deployment.crawler.workers id).toAsk)
        (urlsIn crates deployment.crawler.shared.service.queue.waiting)]
    gcongr
  | restart startUrl seed =>
    cases moved
    have asksNothing : (∑ _ : Fin n, (Worker.atLoop : Worker Url).toAsk) = 0 :=
      Finset.sum_const_zero
    show 0 + ((∑ _ : Fin n, (Worker.atLoop : Worker Url).toAsk) +
        urlsIn crates deployment.crawler.shared.service.queue.waiting +
          urlsIn crates deployment.entered) ≤
      (∑ id, (deployment.crawler.workers id).toAsk) +
        urlsIn crates deployment.crawler.shared.service.queue.waiting +
          urlsIn crates deployment.entered
    rw [zero_add, asksNothing, zero_add]
    gcongr
    exact Multiset.le_add_left _ _

/-- Between two states of a run no more is asked for than the credit that is used up and what is
pushed as new work. -/
theorem asked_add_credit_le {actions : List (DeploymentAction Url n)}
    (ran : Transition.run (deploymentStep crates limit) actions deployment = some next) :
    Transition.spent (deploymentStep crates limit) askedBy actions deployment +
        (next.crawler.credit crates + urlsIn crates deployment.entered) ≤
      deployment.crawler.credit crates + urlsIn crates next.entered := by
  let always : Deployment Url n → DeploymentAction Url n → Prop := fun _ _ => True
  have permits : Transition.Permits (deploymentStep crates limit) always actions deployment :=
    Transition.permits_of_all fun _ _ => trivial
  let anywhere : Deployment Url n → Prop := fun _ => True
  have begins : anywhere deployment := trivial
  exact Transition.spent_add_credit_le
    (fun _ _ _ kept _ moved => ⟨kept, deploymentStep_pays moved⟩) begins ran permits

/-- Over any run, with any number of restarts, the workers go to the network for a URL no more
often than it waited at the start and was pushed as new work, less the times it still waits. -/
theorem asked_within_pushes {startUrl seed : Option String} {clock : Instant}
    {service : StorageService Url} {actions : List (DeploymentAction Url n)}
    (ran : Transition.run (deploymentStep crates limit) actions
      (Deployment.begin startUrl seed clock service) = some deployment) :
    Transition.spent (deploymentStep crates limit) askedBy actions
          (Deployment.begin startUrl seed clock service) +
        urlsIn crates deployment.crawler.shared.service.queue.waiting ≤
      urlsIn crates service.queue.waiting + urlsIn crates deployment.entered := by
  have paid := asked_add_credit_le ran
  have begins : ((Deployment.begin startUrl seed clock service : Deployment Url n).crawler.credit
      crates) = urlsIn crates service.queue.waiting := by
    have asksNothing : (∑ _ : Fin n, (Worker.atLoop : Worker Url).toAsk) = 0 :=
      Finset.sum_const_zero
    show (∑ _ : Fin n, (Worker.atLoop : Worker Url).toAsk) + urlsIn crates service.queue.waiting = _
    rw [asksNothing, zero_add]
  have entersNothing : urlsIn crates (Deployment.begin startUrl seed clock service :
      Deployment Url n).entered = 0 := rfl
  rw [begins, entersNothing, add_zero] at paid
  refine le_trans ?_ paid
  gcongr
  exact Multiset.le_add_left _ _

end Deployments

/-! ### The sample web -/

/-- Two seeds are pushed, and the home page is downloaded: what was asked for and what waits are all
that was pushed. -/
theorem asked_within_pushes_sample : ∃ deployment : Deployment SampleUrl 1,
    Transition.run (deploymentStep sampleCrates none)
        (sampleLaunch 2 ++ sampleWorks (sampleTake ++ samplePageTask))
        (sampleDeployment "https://a.example/ https://b.example/") = some deployment ∧
      Transition.spent (deploymentStep sampleCrates none) askedBy
            (sampleLaunch 2 ++ sampleWorks (sampleTake ++ samplePageTask))
            (sampleDeployment "https://a.example/ https://b.example/") +
          urlsIn sampleCrates deployment.crawler.shared.service.queue.waiting ≤
        0 + urlsIn sampleCrates deployment.entered := by
  obtain ⟨deployment, ran⟩ : ∃ deployment : Deployment SampleUrl 1,
      Transition.run (deploymentStep sampleCrates none)
        (sampleLaunch 2 ++ sampleWorks (sampleTake ++ samplePageTask))
        (sampleDeployment "https://a.example/ https://b.example/") = some deployment := ⟨_, rfl⟩
  exact ⟨deployment, ran, asked_within_pushes ran⟩

/-- The run asks for the home page once, and leaves the other page waiting. -/
example :
    Transition.spent (deploymentStep sampleCrates none) askedBy
        (sampleLaunch 2 ++ sampleWorks (sampleTake ++ samplePageTask))
        (sampleDeployment "https://a.example/ https://b.example/") = {.home} := by
  decide +kernel

end PoliteCrawler
