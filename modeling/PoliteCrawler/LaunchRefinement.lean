/-
This file connects the launch call by call to the start as one step.

When no other party moves between the calls of a launch, the workers start on
the crawl that `startUp` starts, but for the record of what was ever pushed:
what holds of a crawl from its beginning holds of a deployment whose launch was
undisturbed.
-/

import PoliteCrawler.Launch

namespace PoliteCrawler

/-! ### The calls of a launch -/

section Whole

variable {Url : Type} {crates : Crates Url}

/-- A step of the launch while nothing else moves. -/
def launchAlone (crates : Crates Url) (input : Input Url) (state : Shared Url × Launch Url) :
    Option (Shared Url × Launch Url) :=
  launchStep crates input state.1 state.2

theorem rpc_answered {Value : Type} {service : StorageService Url}
    {serve : DbFaults → CrawlerStorage Url → Outcome Value × CrawlerStorage Url}
    (up : service.consumer ≠ .down) :
    rpc service (.rpc DbFaults.none .answered) serve =
      some ((serve DbFaults.none service.storage).1.mapError fun _ => .error .grpcError,
        { service with storage := (serve DbFaults.none service.storage).2 }) := by
  cases consumer : service.consumer with
  | down => exact absurd consumer up
  | _ => simp only [rpc, consumer]

/-- The seeds are inserted one after the other, those whose calls fail excepted. -/
theorem launch_seeds (insertFails : Url → Bool) {left filtered : List String} {shared : Shared Url}
    (up : shared.service.consumer ≠ .down)
    (parse : ∀ text ∈ left, ∃ url, crates.url.parse text = .ok url) :
    Transition.Reaches (launchAlone crates) (shared, .seeding left filtered)
      ({ shared with
        service := insertAllUrls crates shared.service
          ((left.filterMap fun text => (crates.url.parse text).toOption).filter
            fun url => !insertFails url) },
        .seeding [] (filtered ++ left)) := by
  induction left generalizing filtered shared with
  | nil =>
    rw [List.append_nil]
    exact .start
  | cons text left inductionHypothesis =>
    obtain ⟨url, parsed⟩ := parse text List.mem_cons_self
    have rest := fun other member => parse other (List.mem_cons_of_mem text member)
    have front : filtered ++ text :: left = filtered ++ [text] ++ left := by
      rw [List.append_assoc, List.singleton_append]
    have urls : (text :: left).filterMap (fun text => (crates.url.parse text).toOption) =
        url :: left.filterMap fun text => (crates.url.parse text).toOption := by
      rw [List.filterMap_cons, parsed]
      rfl
    rw [front, urls]
    cases fails : insertFails url with
    | true =>
      rw [List.filter_cons_of_neg (by rw [fails]; exact Bool.false_ne_true)]
      have skipped : launchAlone crates (.rpc DbFaults.none .failed)
          (shared, .seeding (text :: left) filtered) =
            some (shared, .seeding left (filtered ++ [text])) := rfl
      exact .trans (.move .start trivial skipped) (inductionHypothesis up rest)
    | false =>
      rw [List.filter_cons_of_pos (by rw [fails]; rfl)]
      have inserted : launchAlone crates (.rpc DbFaults.none .answered)
          (shared, .seeding (text :: left) filtered) =
            some ({ shared with service := insertAllUrls crates shared.service [url] },
              .seeding left (filtered ++ [text])) := by
        simp only [launchAlone, launchStep, insertSeedStep, rpc_answered up, serveInsert, parsed,
          Option.map_some]
        rfl
      exact .trans (.move .start trivial inserted) (inductionHypothesis up rest)

theorem launch_mark {url : Url} {shared : Shared Url} (up : shared.service.consumer ≠ .down) :
    launchAlone crates (.rpc DbFaults.none .answered) (shared, .marking url) =
      some ({ shared with service := insertAllUrls crates shared.service [url] }, .running) := by
  simp only [launchAlone, launchStep, markStartStep, rpc_answered up, serveInsert,
    crates.url.parse_asStr, Option.map_some]
  rfl

/-- The start URL is pushed to an empty queue and marked. -/
theorem launch_url {url : Url} {shared : Shared Url} (up : shared.service.consumer ≠ .down)
    (empty : shared.service.queue.waiting = []) :
    Transition.Reaches (launchAlone crates) (shared, .pushing url)
      ({ shared with
        service := { insertAllUrls crates shared.service [url] with
          queue := ⟨[crates.url.asStr url], shared.service.queue.pushed ++ [crates.url.asStr url]⟩ }
        activeTasks := 1 }, .running) := by
  have pushed : launchAlone crates (.redis .answered) (shared, .pushing url) =
      some ({ shared with
        service := { shared.service with
          queue := ⟨[crates.url.asStr url], shared.service.queue.pushed ++ [crates.url.asStr url]⟩ }
        activeTasks := 1 }, .marking url) := by
    simp only [launchAlone, launchStep, pushStartStep, pushTasks, TaskQueue.pushBulk, empty,
      reduceCtorEq, if_true, if_false, List.nil_append]
  exact .move (.move .start trivial pushed) trivial (launch_mark up)

theorem seedTexts_parse (seed : String) :
    ∀ text ∈ seedTexts crates seed, ∃ url, crates.url.parse text = .ok url := by
  intro text member
  have isOk := (List.mem_filter.mp member).2
  cases parsed : crates.url.parse text with
  | ok url => exact ⟨url, rfl⟩
  | error reason =>
    rw [parsed] at isOk
    cases isOk

/-- The seeds are pushed to an empty queue. -/
theorem launch_push {filtered : List String} {shared : Shared Url}
    (empty : shared.service.queue.waiting = []) (found : filtered ≠ []) :
    launchAlone crates (.redis .answered) (shared, .seeding [] filtered) =
      some ({ shared with
        service := { shared.service with
          queue := ⟨filtered, shared.service.queue.pushed ++ filtered⟩ }
        activeTasks := BitVec.ofNat 64 filtered.length }, .running) := by
  cases filtered with
  | nil => exact absurd rfl found
  | cons text rest =>
    simp only [launchAlone, launchStep, pushSeedsStep, pushTasks, TaskQueue.pushBulk, empty,
      reduceCtorEq, if_true, if_false, List.nil_append]

/-- A launch that nothing comes between starts the crawl that `startUp` starts. -/
theorem launch_startUp {startUrl : Option String} {seed : String} {insertFails : Url → Bool}
    {shared : Shared Url} {started : StorageService Url × Nat}
    (up : shared.service.consumer ≠ .down)
    (starts : startUp crates startUrl seed insertFails shared.service = some started) :
    ∃ pushed, Transition.Reaches (launchAlone crates) (shared, .checking startUrl (some seed))
      ({ shared with
        service := { started.1 with queue := ⟨started.1.queue.waiting, pushed⟩ }
        activeTasks := BitVec.ofNat 64 started.2 }, .running) := by
  cases startUrl with
  | some text =>
    cases parsed : crates.url.parse text with
    | error reason =>
      simp only [startUp, parsed] at starts
      cases starts
    | ok url =>
      simp only [startUp, parsed] at starts
      split at starts
      · cases starts
      · cases starts
        refine ⟨shared.service.queue.pushed ++ [crates.url.asStr url], ?_⟩
        cases waiting : shared.service.queue.waiting with
        | nil =>
          have checked : launchAlone crates (.redis .answered)
              (shared, .checking (some text) (some seed)) = some (shared, .pushing url) := by
            simp only [launchAlone, launchStep, isEmptyStep, afterIsEmpty, waiting, parseStart,
              parsed, if_true]
          exact .trans (.move .start trivial checked) (launch_url up waiting)
        | cons front rest =>
          have checked : launchAlone crates (.redis .answered)
              (shared, .checking (some text) (some seed)) = some (shared, .cleaning text) := by
            simp only [launchAlone, launchStep, isEmptyStep, afterIsEmpty, waiting, if_true]
          have cleaned : launchAlone crates (.redis .answered) (shared, .cleaning text) =
              some ({ shared with service := { shared.service with
                queue := ⟨[], shared.service.queue.pushed⟩ } }, .pushing url) := by
            simp only [launchAlone, launchStep, cleanStep, cleanQueue, parseStart, parsed,
              reduceCtorEq, if_true, if_false]
          exact .trans (.move (.move .start trivial checked) trivial cleaned) (launch_url up rfl)
  | none =>
    cases waiting : shared.service.queue.waiting with
    | nil =>
      simp only [startUp, waiting] at starts
      split at starts
      · cases starts
      · rename_i found
        cases starts
        have checked : launchAlone crates (.redis .answered) (shared, .checking none (some seed)) =
            some (shared, .seeding (seedTexts crates seed) []) := by
          simp only [launchAlone, launchStep, isEmptyStep, afterIsEmpty, waiting, if_true]
        have seeded : Transition.Reaches (launchAlone crates)
            (shared, .seeding (seedTexts crates seed) []) _ :=
          launch_seeds insertFails up (seedTexts_parse seed)
        exact ⟨_, .move (.trans (.move .start trivial checked) seeded) trivial
          (launch_push waiting found)⟩
    | cons text rest =>
      simp only [startUp, waiting] at starts
      cases starts
      refine ⟨shared.service.queue.pushed, ?_⟩
      have checked : launchAlone crates (.redis .answered) (shared, .checking none (some seed)) =
          some (shared, .counting) := by
        simp only [launchAlone, launchStep, isEmptyStep, afterIsEmpty, waiting, if_true]
      have counted : launchAlone crates (.redis .answered) (shared, .counting) =
          some ({ shared with
            activeTasks := BitVec.ofNat 64 shared.service.queue.waiting.length }, .running) := rfl
      rw [waiting] at counted
      exact .move (.move .start trivial checked) trivial counted

end Whole

/-! ### The start of the workers -/

section Deployment

variable {Url : Type} {n : Nat} [DecidableEq Url] {crates : Crates Url}
  {deployment : Deployment Url n} {limit : Option (BitVec 64)}

/-- While nothing else moves, the deployment follows its launch. -/
theorem reaches_of_launch {shared : Shared Url} {launch : Launch Url}
    (reached : Transition.Reaches (launchAlone crates)
      (deployment.crawler.shared, deployment.launch) (shared, launch)) :
    ∃ entered, Transition.Reaches (deploymentStep crates limit) deployment
      { deployment with crawler := { deployment.crawler with shared }, launch, entered } := by
  generalize stands : (shared, launch) = state at reached
  induction reached generalizing shared launch with
  | start =>
    obtain ⟨rfl, rfl⟩ := Prod.mk.inj stands
    exact ⟨deployment.entered, .start⟩
  | @move state next input _ _ moved inductionHypothesis =>
    subst stands
    obtain ⟨entered, reached⟩ := inductionHypothesis rfl
    have stepped : deploymentStep crates limit (.launch input) { deployment with
        crawler := { deployment.crawler with shared := state.1 }, launch := state.2, entered } =
          some { deployment with
            crawler := { deployment.crawler with shared }
            launch
            entered := entered ++ state.2.enters crates input } :=
      Option.map_eq_some_iff.mpr ⟨_, moved, rfl⟩
    exact ⟨_, .move reached trivial stepped⟩

/-- The crawl with another record of what was ever pushed. -/
def Crawler.withPushed (crawler : Crawler Url n) (pushed : List String) : Crawler Url n :=
  { crawler with shared := { crawler.shared with service := { crawler.shared.service with
      queue := ⟨crawler.shared.service.queue.waiting, pushed⟩ } } }

/-- A process whose launch nothing comes between starts its workers on the crawl that `startUp`
starts. -/
theorem begin_of_startUp {startUrl : Option String} {seed : String} {insertFails : Url → Bool}
    {clock : Instant} {service : StorageService Url} {started : StorageService Url × Nat}
    (up : service.consumer ≠ .down)
    (starts : startUp crates startUrl seed insertFails service = some started) :
    ∃ (pushed : List String) (next : Deployment Url n),
      Transition.Reaches (deploymentStep crates limit)
        (Deployment.begin startUrl (some seed) clock service) next ∧
      next.launch = .running ∧
      next.crawler = (Crawler.begin clock started).withPushed pushed := by
  let start : Deployment Url n := Deployment.begin startUrl (some seed) clock service
  have up : start.crawler.shared.service.consumer ≠ .down := up
  obtain ⟨pushed, launched⟩ := launch_startUp up starts
  obtain ⟨entered, reached⟩ : ∃ entered, Transition.Reaches (deploymentStep crates limit) start _ :=
    reaches_of_launch launched
  exact ⟨pushed, _, reached, rfl, rfl⟩

end Deployment

end PoliteCrawler
