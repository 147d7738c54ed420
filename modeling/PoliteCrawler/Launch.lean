/-
This file models the start of `run` call by call, and the worker service over any
number of restarts beside a storage service that goes on.

`startUp` takes the start as one step. Here every Redis and gRPC call of it is a
step of its own, between which the storage service moves: the consumer can push
a sitemap while the seeds are inserted, and a call that fails leaves the work
half done. A launch that nothing comes between gives what `startUp` gives.

Beside the state of the program a deployment records which texts a `BLPOP` has
taken from the queue and which were pushed as new work. A re-queue by the rate
limiter is no new work.
-/

import PoliteCrawler.CrawlerMoves

namespace PoliteCrawler

/-! ### The start of `run` -/

/-- Where `run` stands before its workers are spawned. -/
inductive Launch (Url : Type)
  /-- `seed` is what the seed file holds, when it can be read. -/
  | checking (startUrl seed : Option String)
  | cleaning (startUrl : String)
  | pushing (url : Url)
  | marking (url : Url)
  | seeding (left filtered : List String)
  | counting
  | running
  | ended

def Launch.isRunning {Url : Type} : Launch Url → Bool
  | .running => true
  | _ => false

section Steps

variable {Url : Type} (crates : Crates Url)

/-- The next state of the launch. -/
abbrev LaunchStep (Url : Type) := Option (Shared Url × Launch Url)

/-- The texts of the seed file that parse. -/
def seedTexts (seed : String) : List String :=
  (splitWhitespace crates.unicode seed).filter fun text => (crates.url.parse text).isOk

/-- `Url::parse(&u)?` -/
def parseStart (startUrl : String) : Launch Url :=
  match crates.url.parse startUrl with
  | .error _ => .ended
  | .ok url => .pushing url

/-- What `is_empty` leads to. -/
def afterIsEmpty (startUrl seed : Option String) (queue : TaskQueue) : Launch Url :=
  match startUrl, queue.waiting with
  | some startUrl, [] => parseStart crates startUrl
  | some startUrl, _ :: _ => .cleaning startUrl
  | none, [] =>
    match seed with
    | none => .ended
    | some seed => .seeding (seedTexts crates seed) []
  | none, _ :: _ => .counting

def isEmptyStep (input : Input Url) (startUrl seed : Option String) (shared : Shared Url) :
    LaunchStep Url :=
  match input with
  | .redis call => some (shared,
      if call = .answered then afterIsEmpty crates startUrl seed shared.service.queue else .ended)
  | _ => none

/-- `DEL` of the task queue. -/
def cleanQueue (service : StorageService Url) (call : Call) : StorageService Url :=
  if call = .failed then service
  else { service with queue := ⟨[], service.queue.pushed⟩ }

def cleanStep (input : Input Url) (startUrl : String) (shared : Shared Url) : LaunchStep Url :=
  match input with
  | .redis call => some ({ shared with service := cleanQueue shared.service call },
      if call = .answered then parseStart crates startUrl else .ended)
  | _ => none

/-- The start URL is pushed before it is marked. -/
def pushStartStep (input : Input Url) (url : Url) (shared : Shared Url) : LaunchStep Url :=
  match input with
  | .redis call => some ({ shared with
        service := pushTasks shared.service [crates.url.asStr url] call
        activeTasks := if call = .answered then 1 else shared.activeTasks },
      if call = .answered then .marking url else .ended)
  | _ => none

/-- The answer to `insert_url` is not looked at; an error ends `run`. -/
def markStartStep (input : Input Url) (url : Url) (shared : Shared Url) : LaunchStep Url :=
  (rpc shared.service input (serveInsert crates (crates.url.asStr url))).map fun answer =>
    ({ shared with service := answer.2 },
      match answer.1 with
      | .ok _ => .running
      | .error _ => .ended)

/-- The answer to `insert_url` is not looked at, and an error is only printed. -/
def insertSeedStep (input : Input Url) (text : String) (left filtered : List String)
    (shared : Shared Url) : LaunchStep Url :=
  (rpc shared.service input (serveInsert crates text)).map fun answer =>
    ({ shared with service := answer.2 }, .seeding left (filtered ++ [text]))

/-- Without seeds `run` returns. -/
def pushSeedsStep (input : Input Url) (filtered : List String) (shared : Shared Url) :
    LaunchStep Url :=
  match filtered, input with
  | [], .proceed => some (shared, .ended)
  | _ :: _, .redis call => some ({ shared with
        service := pushTasks shared.service filtered call
        activeTasks :=
          if call = .answered then BitVec.ofNat 64 filtered.length else shared.activeTasks },
      if call = .answered then .running else .ended)
  | _, _ => none

def countStep (input : Input Url) (shared : Shared Url) : LaunchStep Url :=
  match input with
  | .redis call => some ({ shared with
        activeTasks :=
          if call = .answered then BitVec.ofNat 64 shared.service.queue.waiting.length
          else shared.activeTasks },
      if call = .answered then .running else .ended)
  | _ => none

def launchStep (input : Input Url) (shared : Shared Url) : Launch Url → LaunchStep Url
  | .checking startUrl seed => isEmptyStep crates input startUrl seed shared
  | .cleaning startUrl => cleanStep crates input startUrl shared
  | .pushing url => pushStartStep crates input url shared
  | .marking url => markStartStep crates input url shared
  | .seeding (text :: left) filtered => insertSeedStep crates input text left filtered shared
  | .seeding [] filtered => pushSeedsStep input filtered shared
  | .counting => countStep input shared
  | .running | .ended => none

end Steps

/-! ### The start URL -/

section StartUrl

variable {Url : Type} {crates : Crates Url}

/-- The URL that the launch has pushed and not yet marked. -/
def Launch.pending : Launch Url → Option Url
  | .marking url => some url
  | _ => none

theorem Launch.pending_of_isRunning {launch : Launch Url} (running : launch.isRunning = true) :
    launch.pending = none := by
  cases launch with
  | marking url => cases running
  | _ => rfl

theorem Launch.eq_of_pending {launch : Launch Url} {url : Url} (pending : launch.pending = some url) :
    launch = .marking url := by
  cases launch with
  | marking other => exact congrArg _ (Option.some.inj pending)
  | _ => cases pending

theorem Launch.pending_parseStart (startUrl : String) :
    (parseStart crates startUrl).pending = none := by
  unfold parseStart
  split <;> rfl

theorem Launch.pending_afterIsEmpty (startUrl seed : Option String) (queue : TaskQueue) :
    (afterIsEmpty crates startUrl seed queue).pending = none := by
  unfold afterIsEmpty
  split
  · exact Launch.pending_parseStart _
  · rfl
  · split <;> rfl
  · rfl

/-- Only the push of the start URL leads to its mark. -/
theorem launchStep_pending {shared next : Shared Url} {launch after : Launch Url}
    {input : Input Url} (moved : launchStep crates input shared launch = some (next, after)) :
    after.pending = none ∨
      ∃ url, launch = .pushing url ∧ input = .redis .answered ∧ after = .marking url := by
  cases launch with
  | checking startUrl seed =>
    cases input <;> cases moved
    refine Or.inl ?_
    split
    · exact Launch.pending_afterIsEmpty _ _ _
    · rfl
  | cleaning startUrl =>
    cases input <;> cases moved
    refine Or.inl ?_
    split
    · exact Launch.pending_parseStart _
    · rfl
  | pushing url =>
    cases input <;> cases moved
    rename_i call
    cases call with
    | answered => exact Or.inr ⟨url, rfl, rfl, rfl⟩
    | _ => exact Or.inl rfl
  | marking url =>
    obtain ⟨⟨answer, service⟩, called, made⟩ := Option.map_eq_some_iff.mp moved
    obtain ⟨_, rfl⟩ := Prod.mk.inj made
    exact Or.inl (by cases answer <;> rfl)
  | seeding left filtered =>
    cases left with
    | nil =>
      cases filtered <;> cases input <;> cases moved <;> refine Or.inl ?_
      · rfl
      · split <;> rfl
    | cons text left =>
      obtain ⟨⟨answer, service⟩, called, made⟩ := Option.map_eq_some_iff.mp moved
      obtain ⟨_, rfl⟩ := Prod.mk.inj made
      exact Or.inl rfl
  | counting =>
    cases input <;> cases moved
    exact Or.inl (by split <;> rfl)
  | running => cases moved
  | ended => cases moved

end StartUrl

/-! ### The deployment -/

/-- A worker service and the storage service. -/
structure Deployment (Url : Type) (n : Nat) where
  crawler : Crawler Url n
  launch : Launch Url
  /-- The texts that a `BLPOP` has taken. -/
  popped : List String
  /-- The texts that were pushed as new work. -/
  entered : List String

/-- A process of the worker service before its first call. -/
def Crawler.fresh {Url : Type} {n : Nat} (clock : Instant) (service : StorageService Url) :
    Crawler Url n where
  shared := {
    service
    activeTasks := 0
    pagesCrawled := 0
    limiter := DomainRateLimiter.new (10 ^ 9)
    cancelled := false
    clock
    journal := Journal.empty }
  workers _ := .atLoop
  monitoring := true

def Deployment.begin {Url : Type} {n : Nat} (startUrl seed : Option String) (clock : Instant)
    (service : StorageService Url) : Deployment Url n where
  crawler := Crawler.fresh clock service
  launch := .checking startUrl seed
  popped := []
  entered := []

inductive DeploymentAction (Url : Type) (n : Nat)
  | crawl (action : CrawlerAction Url n)
  | launch (input : Input Url)
  /-- The process ends, at any point, and a new one comes up. -/
  | restart (startUrl seed : Option String)

section Deployment

variable {Url : Type} {n : Nat}

/-- What a queue call takes effect on. -/
def Call.effect (call : Call) (texts : List String) : List String :=
  if call = .failed then [] else texts

/-- The texts a step of a worker takes from the queue. -/
def Worker.pops (queue : TaskQueue) : Worker Url → Input Url → List String
  | .popping, .redis call => call.effect (queue.waiting.take 1)
  | _, _ => []

/-- The texts a step of a worker pushes as new work. -/
def Worker.enters : Worker Url → Input Url → List String
  | .working _ _ (.pushing _ filtered), .redis call => call.effect filtered
  | _, _ => []

/-- The texts a step of the consumer pushes. -/
def Consumer.enters : Consumer → ServiceAction Url → List String
  | .pushing _ sitemap _ _ _, .pushSitemap call => call.effect [sitemap]
  | _, _ => []

def poppedBy (crawler : Crawler Url n) : CrawlerAction Url n → List String
  | .worker id input => (crawler.workers id).pops crawler.shared.service.queue input
  | _ => []

def enteredBy (crawler : Crawler Url n) : CrawlerAction Url n → List String
  | .worker id input => (crawler.workers id).enters input
  | .service action => crawler.shared.service.consumer.enters action
  | _ => []

variable (crates : Crates Url)

/-- The texts a step of the launch pushes. -/
def Launch.enters : Launch Url → Input Url → List String
  | .pushing url, .redis call => call.effect [crates.url.asStr url]
  | .seeding [] filtered, .redis call => call.effect filtered
  | _, _ => []

/-- The workers and the monitor run after the launch. -/
def Deployment.enables (deployment : Deployment Url n) : CrawlerAction Url n → Bool
  | .worker _ _ | .monitor => deployment.launch.isRunning
  | _ => true

variable [DecidableEq Url]

def deploymentStep (limit : Option (BitVec 64)) :
    DeploymentAction Url n → Deployment Url n → Option (Deployment Url n)
  | .crawl action, deployment =>
    if deployment.enables action then
      (crawlerStep crates limit action deployment.crawler).map fun crawler =>
        { deployment with
          crawler
          popped := deployment.popped ++ poppedBy deployment.crawler action
          entered := deployment.entered ++ enteredBy deployment.crawler action }
    else none
  | .launch input, deployment =>
    (launchStep crates input deployment.crawler.shared deployment.launch).map fun moved =>
      { deployment with
        crawler := { deployment.crawler with shared := moved.1 }
        launch := moved.2
        entered := deployment.entered ++ deployment.launch.enters crates input }
  | .restart startUrl seed, deployment =>
    some { deployment with
      crawler := Crawler.fresh deployment.crawler.shared.clock deployment.crawler.shared.service
      launch := .checking startUrl seed }

variable {crates} {deployment next : Deployment Url n} {limit : Option (BitVec 64)}

theorem launchStep_of_moved {input : Input Url}
    (moved : deploymentStep crates limit (.launch input) deployment = some next) :
    ∃ shared, launchStep crates input deployment.crawler.shared deployment.launch =
      some (shared, next.launch) := by
  obtain ⟨⟨shared, launch⟩, stepped, rfl⟩ := Option.map_eq_some_iff.mp moved
  exact ⟨shared, stepped⟩

theorem crawlerStep_of_moved {action : CrawlerAction Url n}
    (moved : deploymentStep crates limit (.crawl action) deployment = some next) :
    deployment.enables action = true ∧ next.launch = deployment.launch ∧
      crawlerStep crates limit action deployment.crawler = some next.crawler := by
  simp only [deploymentStep] at moved
  split at moved
  · rename_i enabled
    obtain ⟨crawler, stepped, rfl⟩ := Option.map_eq_some_iff.mp moved
    exact ⟨enabled, rfl, stepped⟩
  · cases moved

end Deployment

/-! ### The sample web -/

/-- A deployment with one worker beside a storage service that runs, and a seed file. -/
def sampleDeployment (seed : String) : Deployment SampleUrl 1 :=
  Deployment.begin none (some seed) 0 {
    StorageService.initial CrawlerDb.sample defaultAgentName with
    log := GroupedLog.empty.createGroup
    consumer := .reading }

/-- The launch inserts the seeds, of which there are as many, and pushes them. -/
def sampleLaunch (seeds : Nat) : List (DeploymentAction SampleUrl 1) :=
  .launch (.redis .answered) ::
    (List.replicate seeds (.launch (.rpc DbFaults.none .answered)) ++ [.launch (.redis .answered)])

def sampleWorks (inputs : List (Input SampleUrl)) : List (DeploymentAction SampleUrl 1) :=
  inputs.map fun input => .crawl (.worker (Fin.last 0) input)

end PoliteCrawler
