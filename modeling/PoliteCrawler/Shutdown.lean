/-
This file proves that a crawl that is told to stop does stop.

After the token is cancelled a worker finishes the URL it holds and leaves its
loop. How many steps that takes is not known beforehand, since a page or a
sitemap can list any number of links, each of which is asked for on its own; so
the steps left are counted in the lexicographic order of the phase and of what
is left of the list. Every step of a worker lowers the count, whatever the calls
are answered, and no other step changes it.

A worker always has a step: a call to a service that is down fails. So the
shutdown can complete from every state, and it does complete in every run that
goes on giving a turn to the workers and to the monitor.
-/

import PoliteCrawler.Liveness
import PoliteCrawler.TaskConservation
import Mathlib.Data.DFinsupp.WellFounded

namespace PoliteCrawler

open Transition (toLex_lt_of_fst toLex_lt_of_snd)

variable {Url : Type}

/-! ### What is left to do -/

/-- The steps left to a task: the phases left, and the calls left in this phase. -/
def Task.stepsLeft : Task Url → ℕ ×ₗ ℕ
  | .adding _ => toLex (3, 0)
  | .pushing attempt _ => toLex (4, pushAttempts - attempt)
  | .inserting links _ => toLex (5, links.length)
  | .countingPage _ | .savingDomain _ => toLex (6, 0)
  | .savingPage _ _ | .updatingDelay _ => toLex (7, 0)
  | .fetchingPage _ | .fetchingRobots | .fetchingSitemap => toLex (8, 0)
  | .askingDelay _ _ | .askingSitemapDelay _ => toLex (9, 0)
  | .sleeping _ _ => toLex (10, 0)
  | .awaiting _ => toLex (11, 0)
  | .checking => toLex (12, 0)

/-- The steps left to a worker that does not begin its loop again. -/
def Worker.stepsLeft : Worker Url → ℕ ×ₗ ℕ
  | .exited => toLex (0, 0)
  | .atLoop => toLex (1, 0)
  | .stray | .releasing | .dropping _ => toLex (2, 0)
  | .requeueing _ => toLex (3, 0)
  | .working _ _ task => task.stepsLeft
  | .acquiring _ _ _ => toLex (13, 0)
  | .arrived _ => toLex (14, 0)
  | .popping => toLex (15, 0)

/-- A push is tried no more often than the loop allows. -/
def Worker.WithinAttempts : Worker Url → Prop
  | .working _ _ (.pushing attempt _) => attempt ≤ pushAttempts
  | _ => True

/-! ### The steps of a worker -/

section Steps

variable [DecidableEq Url] {crates : Crates Url} {shared next : Shared Url}
  {worker after : Worker Url} {input : Input Url}

/-- A task that is not pushing comes nearer to its end. -/
theorem TaskMoved.stepsLeft_lt {url : Url} {ticket : Nat} {task : Task Url}
    (moved : TaskMoved crates url ticket shared task input next worker)
    (quiet : ∀ attempt filtered, task ≠ .pushing attempt filtered) :
    worker.stepsLeft < task.stepsLeft ∧ worker.WithinAttempts := by
  cases moved with
  | domainSaved goesOn =>
    rcases goesOn with rfl | ⟨_, rfl⟩
    · exact ⟨toLex_lt_of_fst (by decide), trivial⟩
    · exact ⟨toLex_lt_of_fst (by decide), trivial⟩
  | sitemapDelayAsked _ goesOn | delayAsked _ goesOn =>
    rcases goesOn with rfl | ⟨_, rfl⟩
    · exact ⟨toLex_lt_of_fst (by decide), trivial⟩
    · exact ⟨toLex_lt_of_fst (by decide), trivial⟩
  | pageFetched _ goesOn =>
    rcases goesOn with rfl | rfl
    · exact ⟨toLex_lt_of_fst (by decide), trivial⟩
    · exact ⟨toLex_lt_of_fst (by decide), trivial⟩
  | pageSaved _ goesOn =>
    rcases goesOn with rfl | ⟨_, rfl⟩
    · exact ⟨toLex_lt_of_fst (by decide), trivial⟩
    · exact ⟨toLex_lt_of_fst (by decide), trivial⟩
  | linkInserted _ _ => exact ⟨toLex_lt_of_snd (Nat.lt_succ_self _), trivial⟩
  | someFound _ => exact ⟨toLex_lt_of_fst (by decide), Nat.le_add_left 1 2⟩
  | pushed | pushFailed _ _ => exact absurd rfl (quiet _ _)
  | _ => exact ⟨toLex_lt_of_fst (by decide), trivial⟩

omit [DecidableEq Url] in
/-- A push that fails is tried again, or was the last one. -/
theorem pushTask_stepsLeft {url : Url} {ticket attempt : Nat} {filtered : List String}
    (moved : pushTask input url ticket attempt filtered shared = some (next, after))
    (within : attempt ≤ pushAttempts) :
    after.stepsLeft < (Task.pushing attempt filtered : Task Url).stepsLeft ∧
      after.WithinAttempts := by
  cases input with
  | redis call =>
    obtain ⟨_, rfl⟩ := Prod.mk.inj (Option.some.inj moved)
    split
    · exact ⟨toLex_lt_of_fst (by decide), trivial⟩
    · split
      · exact ⟨toLex_lt_of_fst (by decide), trivial⟩
      · have left : attempt < pushAttempts := lt_of_le_of_ne within ‹_›
        exact ⟨toLex_lt_of_snd (by omega), left⟩
  | _ => cases moved

theorem taskStep_stepsLeft {url : Url} {ticket : Nat} {task : Task Url}
    (within : (Worker.working url ticket task).WithinAttempts)
    (moved : taskStep crates input url ticket shared task = some (next, after)) :
    after.stepsLeft < task.stepsLeft ∧ after.WithinAttempts := by
  cases task with
  | pushing attempt filtered => exact pushTask_stepsLeft moved within
  | _ => exact (taskStep_moved moved).stepsLeft_lt fun _ _ same => by cases same

/-- A worker that is neither at its loop nor in a task comes nearer to its end. -/
theorem WorkerMoved.stepsLeft_lt (moved : WorkerMoved crates shared worker input next after)
    (inside : worker ≠ .atLoop) (outside : ∀ url ticket task, worker ≠ .working url ticket task) :
    after.stepsLeft < worker.stepsLeft ∧ after.WithinAttempts := by
  cases moved with
  | looped _ => exact absurd rfl inside
  | released owed =>
    rcases owed with ⟨rfl, rfl⟩ | ⟨rfl, rfl⟩ | ⟨_, rfl, rfl | rfl⟩
    all_goals exact ⟨toLex_lt_of_fst (by decide), trivial⟩
  | task _ => exact absurd rfl (outside _ _ _)
  | _ => exact ⟨toLex_lt_of_fst (by decide), trivial⟩

/-- Every step of a worker brings it nearer to its end, once it is told to stop. -/
theorem workerStep_stepsLeft (cancelled : shared.cancelled = true)
    (within : worker.WithinAttempts)
    (moved : workerStep crates input shared worker = some (next, after)) :
    after.stepsLeft < worker.stepsLeft ∧ after.WithinAttempts := by
  cases worker with
  | atLoop =>
    cases input with
    | proceed =>
      obtain ⟨_, rfl⟩ := Prod.mk.inj (Option.some.inj moved)
      rw [if_pos cancelled]
      exact ⟨toLex_lt_of_fst (by decide), trivial⟩
    | _ => cases moved
  | working url ticket task => exact taskStep_stepsLeft within moved
  | _ =>
    exact (workerStep_moved moved).stepsLeft_lt (fun same => by cases same)
      (fun _ _ _ same => by cases same)

/-- A push is tried no more often than the loop allows, told to stop or not. -/
theorem workerStep_withinAttempts (within : worker.WithinAttempts)
    (moved : workerStep crates input shared worker = some (next, after)) :
    after.WithinAttempts := by
  cases worker with
  | atLoop =>
    cases workerStep_moved moved with
    | looped goesOn => rcases goesOn with rfl | rfl <;> trivial
    | released owed => rcases owed with ⟨same, _⟩ | ⟨same, _⟩ | ⟨_, same, _⟩ <;> cases same
  | working url ticket task => exact (taskStep_stepsLeft within moved).2
  | _ =>
    exact ((workerStep_moved moved).stepsLeft_lt (fun same => by cases same)
      (fun _ _ _ same => by cases same)).2

/-- A worker that has not left its loop can take a step, which a call that fails is too. -/
theorem workerStep_possible (stays : worker ≠ .exited) :
    ∃ input moved, workerStep crates input shared worker = some moved := by
  cases worker with
  | exited => exact absurd rfl stays
  | popping | requeueing _ => exact ⟨.redis .failed, _, rfl⟩
  | working url ticket task =>
    cases task with
    | checking | askingSitemapDelay _ | askingDelay _ _ =>
      exact ⟨.rpc DbFaults.none .failed, _, rfl⟩
    | fetchingRobots | fetchingSitemap | fetchingPage _ =>
      exact ⟨.web (fun _ _ => .failed) none, _, rfl⟩
    | updatingDelay data =>
      refine ⟨.proceed, Option.isSome_iff_exists.mp ?_⟩
      cases converts : data.delay.toDuration <;>
        simp only [workerStep, taskStep, updateDelayTask, converts, Option.isSome_some]
    | savingDomain _ | savingPage _ _ | pushing _ _ => exact ⟨.redis .failed, _, rfl⟩
    | inserting links filtered =>
      cases links with
      | nil => exact ⟨.proceed, _, rfl⟩
      | cons link rest => exact ⟨.rpc DbFaults.none .failed, _, rfl⟩
    | _ => exact ⟨.proceed, _, rfl⟩
  | _ => exact ⟨.proceed, _, rfl⟩

end Steps

/-! ### The crawl -/

/-- `run` returns: the monitor has left its loop, and no worker is awaited any more. -/
structure Crawler.Finished {n : Nat} (crawler : Crawler Url n) : Prop where
  monitor : crawler.monitoring = false
  workers : ∀ id, crawler.workers id = .exited

/-- A crawl that is told to stop, in the states it can be in. -/
structure Crawler.Stopping {n : Nat} (crawler : Crawler Url n) : Prop where
  cancelled : crawler.shared.cancelled = true
  attempts : ∀ id, (crawler.workers id).WithinAttempts

/-- The action is a step of the worker. -/
def CrawlerAction.IsOf {n : Nat} (id : Fin n) (action : CrawlerAction Url n) : Prop :=
  ∃ input, action = .worker id input

section Crawl

variable [DecidableEq Url] {crates : Crates Url} {n : Nat} {limit : Option (BitVec 64)}
  {crawler next : Crawler Url n} {action : CrawlerAction Url n}

/-- A step of one worker is none of another worker. -/
theorem crawlerStep_worker_cases (id : Fin n)
    (moved : crawlerStep crates limit action crawler = some next) :
    (next.workers id = crawler.workers id ∧ ¬ action.IsOf id) ∨
      ∃ input shared, action = .worker id input ∧
        workerStep crates input crawler.shared (crawler.workers id) =
          some (shared, next.workers id) := by
  cases action with
  | worker other input =>
    obtain ⟨⟨shared, worker⟩, stepped, rfl⟩ := Option.map_eq_some_iff.mp moved
    by_cases same : other = id
    · subst same
      exact Or.inr ⟨input, shared, rfl, by simpa only [Function.update_self] using stepped⟩
    · refine Or.inl ⟨Function.update_of_ne (Ne.symm same) _ _, ?_⟩
      rintro ⟨_, equal⟩
      exact same (CrawlerAction.worker.inj equal).1
  | service action =>
    obtain ⟨service, _, rfl⟩ := Option.map_eq_some_iff.mp moved
    refine Or.inl ⟨rfl, ?_⟩
    rintro ⟨_, ⟨⟩⟩
  | monitor =>
    rw [crawlerStep] at moved
    split at moved <;> cases moved
    refine Or.inl ⟨?_, ?_⟩
    · unfold monitorStep
      split
      · rfl
      · split <;> rfl
    · rintro ⟨_, ⟨⟩⟩
  | interrupt | tick _ =>
    cases moved
    refine Or.inl ⟨rfl, ?_⟩
    rintro ⟨_, ⟨⟩⟩

/-- Pushes are tried within bounds in every state that is reached. -/
theorem crawlerStep_withinAttempts (attempts : ∀ id, (crawler.workers id).WithinAttempts)
    (moved : crawlerStep crates limit action crawler = some next) :
    ∀ id, (next.workers id).WithinAttempts := by
  intro id
  rcases crawlerStep_worker_cases id moved with ⟨same, _⟩ | ⟨_, _, _, stepped⟩
  · rw [same]
    exact attempts id
  · exact workerStep_withinAttempts (attempts id) stepped

theorem Crawler.Stopping.step (stopping : crawler.Stopping)
    (moved : crawlerStep crates limit action crawler = some next) : next.Stopping :=
  ⟨crawlerStep_cancelled moved stopping.cancelled,
    crawlerStep_withinAttempts stopping.attempts moved⟩

/-- The steps left to a worker are lowered by its own steps and by no others. -/
def stoppingRank (crates : Crates Url) (limit : Option (BitVec 64)) (id : Fin n) :
    Transition.Ranking (crawlerStep crates limit) (fun _ _ => True) Crawler.Stopping
      (fun _ action => action.IsOf id) (ℕ ×ₗ ℕ) where
  rank crawler := (crawler.workers id).stepsLeft
  keeps _ _ _ stopping _ moved := stopping.step moved
  bounds _ _ _ stopping _ moved := by
    rcases crawlerStep_worker_cases id moved with ⟨same, _⟩ | ⟨_, _, _, stepped⟩
    · exact (congrArg Worker.stepsLeft same).le
    · exact (workerStep_stepsLeft stopping.cancelled (stopping.attempts id) stepped).1.le
  lowers _ _ _ stopping _ turn moved := by
    rcases crawlerStep_worker_cases id moved with ⟨_, other⟩ | ⟨_, _, _, stepped⟩
    · exact absurd turn other
    · exact (workerStep_stepsLeft stopping.cancelled (stopping.attempts id) stepped).1

/-- A worker that has left its loop does not come back. -/
theorem crawlerStep_exited {id : Fin n} (gone : crawler.workers id = .exited)
    (moved : crawlerStep crates limit action crawler = some next) :
    next.workers id = .exited := by
  rcases crawlerStep_worker_cases id moved with ⟨same, _⟩ | ⟨_, _, _, stepped⟩
  · rw [same]
    exact gone
  · rw [gone] at stepped
    cases stepped

/-- The monitor that sees the token leaves its loop for good. -/
def monitorRank (crates : Crates Url) (limit : Option (BitVec 64)) :
    Transition.Ranking (crawlerStep (n := n) crates limit) (fun _ _ => True) Crawler.Stopping
      (fun _ action => action = .monitor) ℕ where
  rank crawler := crawler.monitoring.toNat
  keeps _ _ _ stopping _ moved := stopping.step moved
  bounds crawler action next stopping _ moved := by
    cases action with
    | monitor =>
      rw [crawlerStep, monitorStep, if_pos stopping.cancelled] at moved
      split at moved <;> cases moved
      exact Nat.zero_le _
    | worker id input =>
      obtain ⟨_, _, rfl⟩ := Option.map_eq_some_iff.mp moved
      exact le_rfl
    | service action =>
      obtain ⟨_, _, rfl⟩ := Option.map_eq_some_iff.mp moved
      exact le_rfl
    | interrupt | tick _ =>
      cases moved
      exact le_rfl
  lowers crawler action next stopping _ turn moved := by
    subst turn
    rw [crawlerStep, monitorStep, if_pos stopping.cancelled] at moved
    split at moved
    · rename_i monitoring
      cases moved
      rw [monitoring]
      exact Nat.zero_lt_one
    · cases moved

theorem crawlerStep_monitorLeft (left : crawler.monitoring = false)
    (moved : crawlerStep crates limit action crawler = some next) : next.monitoring = false := by
  cases action with
  | monitor =>
    rw [crawlerStep, left] at moved
    cases moved
  | worker id input =>
    obtain ⟨_, _, rfl⟩ := Option.map_eq_some_iff.mp moved
    exact left
  | service action =>
    obtain ⟨_, _, rfl⟩ := Option.map_eq_some_iff.mp moved
    exact left
  | interrupt | tick _ =>
    cases moved
    exact left

/-! ### The end of a run -/

/-- The action tells the crawl to stop: the signal, or a round of the monitor that finds no task
left or the limit reached. -/
def Crawler.endsAt (limit : Option (BitVec 64)) (crawler : Crawler Url n) :
    CrawlerAction Url n → Prop
  | .interrupt => True
  | .monitor => crawler.shared.activeTasks = 0 ∨
      limit.any (fun limit => limit ≤ crawler.shared.pagesCrawled) = true
  | _ => False

theorem crawlerStep_endsAt (ends : crawler.endsAt limit action)
    (moved : crawlerStep crates limit action crawler = some next) :
    next.shared.cancelled = true := by
  cases action with
  | monitor =>
    rw [crawlerStep] at moved
    split at moved <;> cases moved
    by_cases cancelled : crawler.shared.cancelled = true
    · rw [monitorStep, if_pos cancelled]
      exact cancelled
    · simp only [Crawler.endsAt] at ends
      rw [monitorStep, if_neg cancelled, if_pos ends]
  | interrupt =>
    cases moved
    rfl
  | worker _ _ | service _ | tick _ => exact ends.elim

/-- Every worker and the monitor take a step again and again, until they have left their loops. -/
structure GivesTurns (path : Transition.Path (crawlerStep (n := n) crates limit)) : Prop where
  workers : ∀ id, path.Recurs fun crawler action =>
    crawler.workers id = .exited ∨ action.IsOf id
  monitor : path.Recurs fun crawler action => crawler.monitoring = false ∨ action = .monitor

/-- Once it is told to stop, a crawl is stopping. -/
theorem stopping_of_endsAt {path : Transition.Path (crawlerStep (n := n) crates limit)}
    {clock : Instant} {started : StorageService Url × Nat}
    (begins : path.state 0 = Crawler.begin clock started) {time : ℕ}
    (told : (path.state time).endsAt limit (path.action time)) :
    (path.state (time + 1)).Stopping := by
  have attempts : ∀ id, ((path.state (time + 1)).workers id).WithinAttempts := by
    refine (path.reaches (time + 1)).invariant (fun id => ?_)
      (fun _ _ _ kept _ moved => crawlerStep_withinAttempts kept moved)
    rw [begins]
    trivial
  exact ⟨crawlerStep_endsAt told (path.moves time), attempts⟩

/-- Nothing keeps a crawl that is stopping from its end: from every state the workers and the
monitor alone can complete the shutdown. -/
theorem Crawler.Stopping.finishes (stopping : crawler.Stopping) :
    ∃ final, Transition.ReachesWith (crawlerStep crates limit)
        (fun _ action => action = .monitor ∨ ∃ id, action.IsOf id) crawler final ∧
      final.Finished := by
  have pool := Transition.Ranking.pool (stoppingRank (n := n) crates limit)
    fun _ _ _ stopping _ moved => stopping.step moved
  have possible : ∀ crawler : Crawler Url n, crawler.Stopping →
      ¬ (∀ id, crawler.workers id = .exited) → ∃ action next, True ∧
        (∃ id, CrawlerAction.IsOf id action) ∧ crawlerStep crates limit action crawler = some next := by
    intro crawler _ stay
    obtain ⟨id, stays⟩ := not_forall.mp stay
    obtain ⟨input, moved, stepped⟩ :=
      @workerStep_possible _ _ crates crawler.shared _ stays
    exact ⟨.worker id input, _, trivial, ⟨id, input, rfl⟩,
      Option.map_eq_some_iff.mpr ⟨moved, stepped, rfl⟩⟩
  obtain ⟨left, reached, stopped, gone⟩ := pool.reaches stopping possible
  have reached : Transition.ReachesWith (crawlerStep crates limit)
      (fun _ action => action = .monitor ∨ ∃ id, action.IsOf id) crawler left :=
    reached.mono fun _ _ taken => Or.inr taken.2
  cases monitoring : left.monitoring with
  | false => exact ⟨left, reached, monitoring, gone⟩
  | true =>
    have moved : crawlerStep crates limit .monitor left = some { left with monitoring := false } := by
      rw [crawlerStep, if_pos monitoring, monitorStep, if_pos stopped.cancelled]
    exact ⟨_, .move reached (Or.inl rfl) moved, rfl, gone⟩

/-- A crawl that is told to stop returns, in every run that goes on giving turns. However the turns
are given and the calls are answered, the workers take only finitely many steps more. -/
theorem shutdown_completes {path : Transition.Path (crawlerStep (n := n) crates limit)}
    {clock : Instant} {started : StorageService Url × Nat}
    (begins : path.state 0 = Crawler.begin clock started) {time : ℕ}
    (told : (path.state time).endsAt limit (path.action time)) :
    (path.Ceases fun _ action => ∃ id, action.IsOf id) ∧
      (GivesTurns path → path.Settles Crawler.Finished) := by
  have stopping : (path.state (time + 1)).Stopping := stopping_of_endsAt begins told
  constructor
  · have pool := Transition.Ranking.pool (stoppingRank (n := n) crates limit)
      fun _ _ _ stopping _ moved => stopping.step moved
    exact pool.ceases stopping
  · intro turns
    have workers : path.Settles fun crawler => ∀ id, crawler.workers id = .exited :=
      Transition.PathWith.settles_forall fun id =>
        (stoppingRank crates limit id).settles stopping (turns.workers id)
          fun _ _ _ gone _ moved => crawlerStep_exited gone moved
    have monitor : path.Settles fun crawler => crawler.monitoring = false :=
      (monitorRank crates limit).settles stopping turns.monitor
        fun _ _ _ left _ moved => crawlerStep_monitorLeft left moved
    exact (Transition.PathWith.settles_and monitor workers).mono fun _ both => ⟨both.1, both.2⟩

end Crawl

/-! ### The sample crawl -/

/-- The signal comes when the first worker has pushed a link that it has not counted yet. -/
def sampleStop : List (CrawlerAction SampleUrl 2) :=
  let first := (Fin.last 0).castSucc
  samplePush.map (.worker first) ++
    [.interrupt, .worker first .proceed, .worker first .proceed, .worker first .proceed,
      .worker (Fin.last 1) .proceed, .monitor]

/-- The first worker counts the link, both leave, and the crawl is finished from then on. -/
theorem shutdown_completes_sample : ∃ started,
    sampleStart CrawlerDb.sample "https://a.example/" = some started ∧
      ∃ path : Transition.Path (crawlerStep (n := 2) sampleCrates none),
        path.state 0 = Crawler.begin 0 started ∧ path.Settles Crawler.Finished := by
  obtain ⟨started, starts, crawler, ran, left, gone, gone'⟩ : ∃ started,
      sampleStart CrawlerDb.sample "https://a.example/" = some started ∧
        ∃ crawler : Crawler SampleUrl 2,
          Transition.run (crawlerStep sampleCrates none) sampleStop (Crawler.begin 0 started) =
            some crawler ∧
          crawler.monitoring = false ∧ crawler.workers 0 = .exited ∧
          crawler.workers 1 = .exited := ⟨_, rfl, _, rfl, rfl, rfl, rfl⟩
  have all : ∀ id, crawler.workers id = .exited := Fin.forall_fin_two.mpr ⟨gone, gone'⟩
  have stays : crawlerStep sampleCrates none (.tick 0) crawler = some crawler := by
    simp only [crawlerStep, Nat.cast_zero, Int.add_zero]
  obtain ⟨path, begins, takes, ends⟩ := Transition.PathWith.exists_of_run
    (Transition.permits_of_all fun _ _ => trivial) ran trivial stays
  have signal : path.action samplePush.length = .interrupt := takes _ (by decide)
  have told : (path.state samplePush.length).endsAt none (path.action samplePush.length) := by
    rw [signal]
    trivial
  have idles : ∀ time, time ≤ max time sampleStop.length ∧
      path.state (max time sampleStop.length) = crawler := fun time =>
    ⟨le_max_left _ _, (ends _ (le_max_right _ _)).1⟩
  have turns : GivesTurns path :=
    ⟨fun id time => ⟨_, (idles time).1, Or.inl (by rw [(idles time).2]; exact all id)⟩,
      fun time => ⟨_, (idles time).1, Or.inl (by rw [(idles time).2]; exact left)⟩⟩
  exact ⟨started, starts, path, begins, (shutdown_completes begins told).2 turns⟩

end PoliteCrawler
