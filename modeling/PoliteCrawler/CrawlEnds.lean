/-
This file proves that a crawl ends when no new work comes any more.

A URL can go round: the rate limiter refuses it and its worker puts it back. So
nothing need be used up by a single step, and that a crawl ends depends on time.
From some time on no step takes a URL off the queue and the workers for good; a
grant would do so, so there are none from then on. The tasks that are left come
to an end, and after that nobody touches an entry of the limiter. Once the clock
has passed what all entries wait for, a URL that is popped would be granted; so
none is popped any more, and every worker leaves its loop.
-/

import PoliteCrawler.RequestBudget
import PoliteCrawler.Shutdown

namespace PoliteCrawler

open Transition (toLex_lt_of_fst toLex_lt_of_snd)

variable {Url : Type}

/-! ### The limiter at rest -/

namespace DomainRateLimiter

variable {limiter : DomainRateLimiter} {domain : String} {now ready : Instant}

/-- Every delay the limiter waits for is over at the instant. -/
def ReadyBy (limiter : DomainRateLimiter) (ready : Instant) : Prop :=
  ∀ domain state, limiter.map domain = some state →
    state.lastAccessed + (state.delay : Int) ≤ ready

theorem tryAcquire_of_passed (passed : (limiter.entry domain now).delay ≤
      saturatingDurationSince now (limiter.entry domain now).lastAccessed) :
    (limiter.tryAcquire domain now).1 = true := by
  rw [tryAcquire, if_pos passed]

/-- A new entry is free at once. -/
theorem passed_of_missing (missing : limiter.map domain = none) :
    (limiter.entry domain now).delay ≤
      saturatingDurationSince now (limiter.entry domain now).lastAccessed := by
  rw [entry, missing]
  show limiter.defaultDelay ≤ (now - (now - (limiter.defaultDelay : Int))).toNat
  rw [sub_sub_cancel, Int.toNat_natCast]

/-- A refusal changes nothing, since the entry is there. -/
theorem tryAcquire_refused_eq (refused : (limiter.tryAcquire domain now).1 = false) :
    (limiter.tryAcquire domain now).2 = limiter := by
  rw [limiter.tryAcquire_refused domain now refused]
  cases entered : limiter.map domain with
  | some state => rw [entry_of_some entered, setEntry, ← entered, Function.update_eq_self]
  | none =>
    rw [tryAcquire_of_passed (passed_of_missing entered)] at refused
    cases refused

/-- A reading from when everything is ready is granted. -/
theorem tryAcquire_of_readyBy (readyBy : limiter.ReadyBy ready) (late : ready ≤ now) :
    (limiter.tryAcquire domain now).1 = true := by
  refine tryAcquire_of_passed ?_
  cases entered : limiter.map domain with
  | some state =>
    rw [entry_of_some entered]
    have passed : (state.delay : Int) ≤ now - state.lastAccessed :=
      le_sub_iff_add_le'.mpr ((readyBy domain state entered).trans late)
    exact Int.ofNat_le.mp (passed.trans (Int.self_le_toNat _))
  | none => exact passed_of_missing entered

theorem exists_readyBy_setEntry (bounded : ∃ ready, limiter.ReadyBy ready) (changed : String)
    (state : DomainState) : ∃ ready, (limiter.setEntry changed state).ReadyBy ready := by
  obtain ⟨ready, readyBy⟩ := bounded
  refine ⟨max ready (state.lastAccessed + (state.delay : Int)), fun domain entered found => ?_⟩
  by_cases same : domain = changed
  · subst same
    obtain rfl := Option.some.inj ((limiter.map_setEntry_self domain state).symm.trans found)
    exact le_max_right _ _
  · rw [limiter.map_setEntry_of_ne changed state same] at found
    exact (readyBy domain entered found).trans (le_max_left _ _)

end DomainRateLimiter

/-! ### The stock of URLs -/

/-- The URL a worker has popped and neither used nor put back. -/
def Worker.carries : Worker Url → Nat
  | .arrived _ | .acquiring _ _ _ | .requeueing _ => 1
  | _ => 0

/-- The URLs that wait, and those that workers carry. -/
def Crawler.stock {n : Nat} (crawler : Crawler Url n) : Nat :=
  (∑ id, (crawler.workers id).carries) + crawler.shared.service.queue.waiting.length

section Steps

variable [DecidableEq Url] {crates : Crates Url} {shared next : Shared Url}
  {worker after : Worker Url} {input : Input Url}

/-- A worker adds to the stock only what it pushes as new work. -/
theorem WorkerMoved.stock (moved : WorkerMoved crates shared worker input next after) :
    next.service.queue.waiting.length + after.carries ≤
      worker.carries + (shared.service.queue.waiting.length + (worker.enters input).length) := by
  cases moved with
  | looped goesOn =>
    rcases goesOn with rfl | rfl <;> simp [Worker.carries, Worker.enters]
  | popFailed _ => simp [Worker.carries, Worker.enters]
  | popLost waiting | popUnparsed waiting _ | popped waiting _ =>
    simp [Worker.carries, Worker.enters, waiting, Shared.dequeue]
  | stamped _ | strayed _ | granted _ | refused =>
    simp [Worker.carries, Worker.enters, Shared.grant, add_comm]
  | requeued => simp [Worker.carries, Worker.enters, waiting_pushTasks, Call.effect, add_comm]
  | @requeueFailed url call _ =>
    cases call <;> simp [Worker.carries, Worker.enters, waiting_pushTasks, Call.effect, add_comm]
  | released owed =>
    rcases owed with ⟨rfl, rfl⟩ | ⟨rfl, rfl⟩ | ⟨_, rfl, rfl | rfl⟩ <;>
      simp [Worker.carries, Worker.enters, Shared.release]
  | @task url ticket task _ _ _ moved =>
    rw [moved.waiting, List.length_append]
    rcases moved.requests with ⟨left, rfl, _⟩ | ⟨⟨ends, rfl⟩, _⟩ <;> simp [Worker.carries]

/-! ### Workers in circulation -/

/-- The worker holds a grant. -/
def Worker.atTask : Worker Url → Bool
  | .working _ _ _ => true
  | _ => false

/-- The steps left to the task of a worker. -/
def Worker.taskLeft : Worker Url → ℕ ×ₗ ℕ
  | .working _ _ task => task.stepsLeft
  | _ => toLex (0, 0)

/-- How far a worker is from leaving its loop when no URL is granted, once the limiter is ready: a
reading from before that can be refused, a later one cannot. -/
def Worker.lap (ready : Instant) : Worker Url → Nat
  | .exited => 0
  | .acquiring _ _ stamp => if ready ≤ stamp then 1 else 7
  | .arrived _ => 2
  | .popping => 3
  | .atLoop => 4
  | .stray | .releasing | .dropping _ => 5
  | .requeueing _ => 6
  | .working _ _ _ => 8

omit [DecidableEq Url] in
theorem Worker.taskLeft_le (worker : Worker Url) : worker.taskLeft ≤ worker.stepsLeft := by
  cases worker with
  | working url ticket task => exact le_rfl
  | _ => exact Prod.Lex.toLex_mono ⟨Nat.zero_le _, le_rfl⟩

omit [DecidableEq Url] in
theorem Worker.taskLeft_of_outside (outside : worker.atTask = false) :
    worker.taskLeft = toLex (0, 0) := by
  cases worker with
  | working url ticket task => cases outside
  | _ => rfl

omit [DecidableEq Url] in
/-- The limiter grants the domain, or refuses it and stays as it is. -/
theorem acquireStep_cases {url : Url} {domain : String} {stamp : Instant}
    (acquired : acquireStep url domain stamp shared = (next, after)) :
    ((shared.limiter.tryAcquire domain stamp).1 = true ∧
        next.service.queue = shared.service.queue ∧ ∃ ticket, after = .working url ticket .checking) ∨
      (shared.limiter.tryAcquire domain stamp).1 = false ∧ next = shared ∧
        after = .requeueing url := by
  unfold acquireStep at acquired
  dsimp only at acquired
  split at acquired
  · rename_i granted
    cases acquired
    exact Or.inl ⟨granted, rfl, _, rfl⟩
  · rename_i refused
    have refused : (shared.limiter.tryAcquire domain stamp).1 = false :=
      Bool.eq_false_iff.mpr refused
    rw [DomainRateLimiter.tryAcquire_refused_eq refused] at acquired
    cases acquired
    exact Or.inr ⟨refused, rfl, rfl⟩

/-- A step that takes nothing off the stock is no grant. -/
theorem acquireStep_circulates {url : Url} {domain : String} {stamp : Instant}
    (stepped : workerStep crates input shared (.acquiring url domain stamp) = some (next, after))
    (circulates : shared.service.queue.waiting.length + 1 ≤
      next.service.queue.waiting.length + after.carries) :
    (shared.limiter.tryAcquire domain stamp).1 = false ∧ next = shared ∧
      after = .requeueing url := by
  cases input with
  | proceed =>
    refine (acquireStep_cases (Option.some.inj stepped)).resolve_left ?_
    rintro ⟨_, queue, _, rfl⟩
    rw [queue] at circulates
    exact Nat.not_succ_le_self _ circulates
  | _ => cases stepped

/-- Where nothing is taken off the stock no worker comes to a task, and the limiter stays as it
is. -/
theorem workerStep_outside (stepped : workerStep crates input shared worker = some (next, after))
    (outside : worker.atTask = false)
    (circulates : shared.service.queue.waiting.length + worker.carries ≤
      next.service.queue.waiting.length + after.carries) :
    after.atTask = false ∧ next.limiter = shared.limiter := by
  by_cases acquires : ∃ url domain stamp, worker = .acquiring url domain stamp
  · obtain ⟨url, domain, stamp, rfl⟩ := acquires
    obtain ⟨_, rfl, rfl⟩ := acquireStep_circulates stepped circulates
    exact ⟨rfl, rfl⟩
  · cases workerStep_moved stepped with
    | looped goesOn => rcases goesOn with rfl | rfl <;> exact ⟨rfl, rfl⟩
    | released owed =>
      rcases owed with ⟨_, rfl⟩ | ⟨_, rfl⟩ | ⟨_, _, rfl | rfl⟩ <;> exact ⟨rfl, rfl⟩
    | granted _ => exact absurd ⟨_, _, _, rfl⟩ acquires
    | refused => exact absurd ⟨_, _, _, rfl⟩ acquires
    | task _ => cases outside
    | _ => exact ⟨rfl, rfl⟩

/-- A worker comes nearer to leaving its loop, since no reading from now on is refused. -/
theorem workerStep_lap {ready : Instant}
    (stepped : workerStep crates input shared worker = some (next, after))
    (outside : worker.atTask = false) (readyBy : shared.limiter.ReadyBy ready)
    (late : ready ≤ shared.clock)
    (circulates : shared.service.queue.waiting.length + worker.carries ≤
      next.service.queue.waiting.length + after.carries) :
    after.lap ready < worker.lap ready := by
  by_cases acquires : ∃ url domain stamp, worker = .acquiring url domain stamp
  · obtain ⟨url, domain, stamp, rfl⟩ := acquires
    obtain ⟨refused, _, rfl⟩ := acquireStep_circulates stepped circulates
    have stale : ¬ ready ≤ stamp := fun fresh => by
      rw [DomainRateLimiter.tryAcquire_of_readyBy readyBy fresh] at refused
      cases refused
    rw [Worker.lap, Worker.lap, if_neg stale]
    exact Nat.lt_succ_self 6
  · cases workerStep_moved stepped with
    | looped goesOn => rcases goesOn with rfl | rfl <;> simp [Worker.lap]
    | released owed =>
      rcases owed with ⟨rfl, rfl⟩ | ⟨rfl, rfl⟩ | ⟨_, rfl, rfl | rfl⟩ <;> simp [Worker.lap]
    | granted _ => exact absurd ⟨_, _, _, rfl⟩ acquires
    | refused => exact absurd ⟨_, _, _, rfl⟩ acquires
    | task _ => cases outside
    | stamped _ =>
      rw [Worker.lap, if_pos late]
      exact Nat.lt_succ_self 1
    | strayed _ => exact absurd circulates (Nat.not_succ_le_self _)
    | _ => simp [Worker.lap]

end Steps

/-! ### The crawl in circulation -/

section Crawl

variable [DecidableEq Url] {crates : Crates Url} {n : Nat} {limit : Option (BitVec 64)}
  {crawler next : Crawler Url n} {action : CrawlerAction Url n}

/-- The step takes a URL off the stock. -/
def Crawler.usesUp (crates : Crates Url) (limit : Option (BitVec 64)) (crawler : Crawler Url n)
    (action : CrawlerAction Url n) : Prop :=
  ∃ next, crawlerStep crates limit action crawler = some next ∧ next.stock < crawler.stock

/-- No new work comes, and no URL is taken off the stock. -/
def Crawler.circulates (crates : Crates Url) (limit : Option (BitVec 64)) (crawler : Crawler Url n)
    (action : CrawlerAction Url n) : Prop :=
  enteredBy crawler action = [] ∧ ¬ crawler.usesUp crates limit action

/-- Without new work the stock does not grow. -/
theorem crawlerStep_stock (moved : crawlerStep crates limit action crawler = some next)
    (none : enteredBy crawler action = []) : next.stock ≤ crawler.stock := by
  cases action with
  | worker id input =>
    obtain ⟨⟨shared, worker⟩, stepped, rfl⟩ := Option.map_eq_some_iff.mp moved
    have paid := (workerStep_moved stepped).stock
    have nothing : (crawler.workers id).enters input = [] := none
    rw [nothing, List.length_nil, Nat.add_zero] at paid
    have pool := Transition.add_sum_update_le crawler.workers id worker Worker.carries paid
    rw [Nat.add_comm] at pool
    exact pool
  | service action =>
    obtain ⟨service, stepped, rfl⟩ := Option.map_eq_some_iff.mp moved
    have nothing : crawler.shared.service.consumer.enters action = [] := none
    have same := (serviceStep_moved crates stepped).waiting
    rw [nothing, List.append_nil] at same
    show (∑ id, (crawler.workers id).carries) + service.queue.waiting.length ≤ crawler.stock
    rw [same]
    exact le_rfl
  | _ =>
    cases crawlerStep_moved crates moved
    exact le_rfl

/-- A worker that takes nothing off the stock keeps what it carries or puts it back. -/
theorem Crawler.circulates.worker {id : Fin n} {input : Input Url} {shared : Shared Url}
    {after : Worker Url} (circulates : crawler.circulates crates limit (.worker id input))
    (stepped : workerStep crates input crawler.shared (crawler.workers id) =
      some (shared, after)) :
    crawler.shared.service.queue.waiting.length + (crawler.workers id).carries ≤
      shared.service.queue.waiting.length + after.carries := by
  have moved : crawlerStep crates limit (.worker id input) crawler = some
      { crawler with shared, workers := Function.update crawler.workers id after } :=
    Option.map_eq_some_iff.mpr ⟨_, stepped, rfl⟩
  have kept : crawler.stock ≤ (∑ other, (Function.update crawler.workers id after other).carries) +
      shared.service.queue.waiting.length :=
    not_lt.mp fun less => circulates.2 ⟨_, moved, less⟩
  have pool := Transition.sum_update_add crawler.workers id after Worker.carries
  unfold Crawler.stock at kept
  omega

/-- The stock falls only finitely often once no new work comes. -/
def stockRank (crates : Crates Url) (limit : Option (BitVec 64)) :
    Transition.Ranking (crawlerStep (n := n) crates limit)
      (fun crawler action => enteredBy crawler action = [])
      (fun crawler => ∀ id, (crawler.workers id).WithinAttempts) (Crawler.usesUp crates limit) ℕ where
  rank := Crawler.stock
  keeps _ _ _ attempts _ moved := crawlerStep_withinAttempts attempts moved
  bounds _ _ _ _ none moved := crawlerStep_stock moved none
  lowers _ _ _ _ _ used moved := by
    obtain ⟨after, moved', less⟩ := used
    obtain rfl := Option.some.inj (moved.symm.trans moved')
    exact less

/-- In circulation a worker that is at no task comes to none. -/
theorem crawlerStep_outside {id : Fin n} (outside : (crawler.workers id).atTask = false)
    (circulates : crawler.circulates crates limit action)
    (moved : crawlerStep crates limit action crawler = some next) :
    (next.workers id).atTask = false := by
  rcases crawlerStep_worker_cases id moved with ⟨same, _⟩ | ⟨input, shared, rfl, stepped⟩
  · rw [same]
    exact outside
  · exact (workerStep_outside stepped outside (circulates.worker stepped)).1

/-- A worker at a task comes nearer to its end, and no other step changes what is left of it. -/
theorem crawlerStep_taskLeft {id : Fin n} (attempts : (crawler.workers id).WithinAttempts)
    (circulates : crawler.circulates crates limit action)
    (moved : crawlerStep crates limit action crawler = some next) :
    (next.workers id).taskLeft ≤ (crawler.workers id).taskLeft ∧
      (action.IsOf id ∧ (crawler.workers id).atTask = true →
        (next.workers id).taskLeft < (crawler.workers id).taskLeft) := by
  rcases crawlerStep_worker_cases id moved with ⟨same, other⟩ | ⟨input, shared, rfl, stepped⟩
  · rw [same]
    exact ⟨le_rfl, fun turn => absurd turn.1 other⟩
  · cases place : (crawler.workers id).atTask with
    | true =>
      have less : (next.workers id).taskLeft < (crawler.workers id).taskLeft := by
        cases worker : crawler.workers id with
        | working url ticket task =>
          rw [worker] at stepped attempts
          exact (Worker.taskLeft_le _).trans_lt (taskStep_stepsLeft attempts stepped).1
        | _ =>
          rw [worker] at place
          cases place
      exact ⟨less.le, fun _ => less⟩
    | false =>
      have left := (workerStep_outside stepped place (circulates.worker stepped)).1
      rw [Worker.taskLeft_of_outside place, Worker.taskLeft_of_outside left]
      exact ⟨le_rfl, fun turn => by cases turn.2⟩

/-- The task of a worker comes to its end, and no other begins. -/
def taskRank (crates : Crates Url) (limit : Option (BitVec 64)) (id : Fin n) :
    Transition.Ranking (crawlerStep crates limit) (Crawler.circulates crates limit)
      (fun crawler => ∀ id, (crawler.workers id).WithinAttempts)
      (fun crawler action => action.IsOf id ∧ (crawler.workers id).atTask = true) (ℕ ×ₗ ℕ) where
  rank crawler := (crawler.workers id).taskLeft
  keeps _ _ _ attempts _ moved := crawlerStep_withinAttempts attempts moved
  bounds _ _ _ attempts circulates moved :=
    (crawlerStep_taskLeft (attempts id) circulates moved).1
  lowers _ _ _ attempts circulates turn moved :=
    (crawlerStep_taskLeft (attempts id) circulates moved).2 turn

/-- No worker is at a task, and what the limiter waits for is over. -/
structure Crawler.Rested (ready : Instant) (crawler : Crawler Url n) : Prop where
  outside : ∀ id, (crawler.workers id).atTask = false
  readyBy : crawler.shared.limiter.ReadyBy ready
  late : ready ≤ crawler.shared.clock

/-- In circulation only the workers at a task touch the limiter. -/
theorem crawlerStep_limiter (outside : ∀ id, (crawler.workers id).atTask = false)
    (circulates : crawler.circulates crates limit action)
    (moved : crawlerStep crates limit action crawler = some next) :
    next.shared.limiter = crawler.shared.limiter := by
  cases action with
  | worker id input =>
    obtain ⟨⟨shared, worker⟩, stepped, rfl⟩ := Option.map_eq_some_iff.mp moved
    exact (workerStep_outside stepped (outside id) (circulates.worker stepped)).2
  | service action =>
    obtain ⟨_, _, rfl⟩ := Option.map_eq_some_iff.mp moved
    rfl
  | _ =>
    cases crawlerStep_moved crates moved
    rfl

theorem crawlerStep_clock (moved : crawlerStep crates limit action crawler = some next) :
    crawler.shared.clock ≤ next.shared.clock := by
  cases crawlerStep_moved crates moved with
  | worker worked => exact worked.clock_eq.symm.le
  | ticked elapsed => exact le_add_of_nonneg_right (Int.natCast_nonneg elapsed)
  | _ => exact le_rfl

theorem Crawler.Rested.step {ready : Instant} (rested : crawler.Rested ready)
    (circulates : crawler.circulates crates limit action)
    (moved : crawlerStep crates limit action crawler = some next) : next.Rested ready where
  outside _ := crawlerStep_outside (rested.outside _) circulates moved
  readyBy := (crawlerStep_limiter rested.outside circulates moved).symm ▸ rested.readyBy
  late := rested.late.trans (crawlerStep_clock moved)

/-- A worker comes nearer to leaving its loop, and no other step delays it. -/
theorem crawlerStep_lap {ready : Instant} {id : Fin n} (rested : crawler.Rested ready)
    (circulates : crawler.circulates crates limit action)
    (moved : crawlerStep crates limit action crawler = some next) :
    (next.workers id).lap ready ≤ (crawler.workers id).lap ready ∧
      (action.IsOf id → (next.workers id).lap ready < (crawler.workers id).lap ready) := by
  rcases crawlerStep_worker_cases id moved with ⟨same, other⟩ | ⟨input, shared, rfl, stepped⟩
  · rw [same]
    exact ⟨le_rfl, fun turn => absurd turn other⟩
  · have less := workerStep_lap stepped (rested.outside id) rested.readyBy rested.late
      (circulates.worker stepped)
    exact ⟨less.le, fun _ => less⟩

/-- In circulation every worker comes to leave its loop once the limiter is ready. -/
def lapRank (crates : Crates Url) (limit : Option (BitVec 64)) (ready : Instant) (id : Fin n) :
    Transition.Ranking (crawlerStep crates limit) (Crawler.circulates crates limit)
      (Crawler.Rested ready) (fun _ action => action.IsOf id) ℕ where
  rank crawler := (crawler.workers id).lap ready
  keeps _ _ _ rested circulates moved := rested.step circulates moved
  bounds _ _ _ rested circulates moved := (crawlerStep_lap rested circulates moved).1
  lowers _ _ _ rested circulates turn moved := (crawlerStep_lap rested circulates moved).2 turn

/-! ### The end -/

variable {permitted : Crawler Url n → CrawlerAction Url n → Prop}

/-- The limiter waits for nothing for ever. -/
theorem WorkerMoved.readyBy {shared after : Shared Url} {worker left : Worker Url}
    {input : Input Url} (moved : WorkerMoved crates shared worker input after left)
    (bounded : ∃ ready, shared.limiter.ReadyBy ready) :
    ∃ ready, after.limiter.ReadyBy ready := by
  cases moved with
  | granted _ | refused => exact DomainRateLimiter.exists_readyBy_setEntry bounded _ _
  | task moved =>
    cases moved with
    | delayUpdated _ =>
      unfold DomainRateLimiter.updateDelay
      split <;> exact DomainRateLimiter.exists_readyBy_setEntry bounded _ _
    | slept => exact DomainRateLimiter.exists_readyBy_setEntry bounded _ _
    | _ => exact bounded
  | _ => exact bounded

theorem crawlerStep_readyBy (bounded : ∃ ready, crawler.shared.limiter.ReadyBy ready)
    (moved : crawlerStep crates limit action crawler = some next) :
    ∃ ready, next.shared.limiter.ReadyBy ready := by
  cases crawlerStep_moved crates moved with
  | worker worked => exact worked.readyBy bounded
  | _ => exact bounded

/-- A crawl whose workers go on, in which time passes and new work comes only finitely often,
ends: once no new work comes the tasks that are left end, and when the limiter is ready the workers
leave. -/
theorem exits_of_ceases {path : Transition.PathWith (crawlerStep (n := n) crates limit) permitted}
    {clock : Instant} {started : StorageService Url × Nat}
    (begins : path.state 0 = Crawler.begin clock started)
    (turns : ∀ id, path.Recurs fun crawler action =>
      crawler.workers id = .exited ∨ action.IsOf id)
    (passes : ∀ instant, ∃ time, instant ≤ (path.state time).shared.clock)
    (ceases : path.Ceases fun crawler action => enteredBy crawler action ≠ []) :
    path.Settles fun crawler => ∀ id, crawler.workers id = .exited := by
  have attempts : ∀ time id, ((path.state time).workers id).WithinAttempts := by
    intro time
    refine (path.reaches time).invariant (fun id => ?_)
      (fun _ _ _ kept _ moved => crawlerStep_withinAttempts kept moved)
    rw [begins]
    trivial
  have bounded : ∀ time, ∃ ready, (path.state time).shared.limiter.ReadyBy ready := by
    intro time
    refine (path.reaches time).invariant ⟨0, ?_⟩
      (fun _ _ _ kept _ moved => crawlerStep_readyBy kept moved)
    rw [begins]
    exact fun domain state entered => by cases entered
  obtain ⟨quiet, none⟩ := ceases
  let still : Transition.PathWith (crawlerStep (n := n) crates limit)
      (fun crawler action => enteredBy crawler action = []) :=
    path.drop quiet fun later after => not_not.mp (none later after)
  obtain ⟨spent, kept⟩ : still.Ceases (Crawler.usesUp crates limit) :=
    (stockRank crates limit).ceases (attempts (quiet + 0))
  let round : Transition.PathWith (crawlerStep (n := n) crates limit)
      (Crawler.circulates crates limit) :=
    still.drop spent fun later after => ⟨still.allowed later, kept later after⟩
  have goOn : ∀ id, round.Recurs fun crawler action =>
      crawler.workers id = .exited ∨ action.IsOf id :=
    fun id => Transition.PathWith.recurs_drop (Transition.PathWith.recurs_drop (turns id))
  obtain ⟨idle, outside⟩ : round.Settles fun crawler =>
      ∀ id, (crawler.workers id).atTask = false := by
    refine Transition.PathWith.settles_forall fun id => ?_
    refine (taskRank crates limit id).settles (attempts (quiet + (spent + 0))) ?_ ?_
    · intro time
      obtain ⟨later, after, turn⟩ := goOn id time
      refine ⟨later, after, ?_⟩
      cases place : ((round.state later).workers id).atTask with
      | true =>
        refine Or.inr ⟨turn.resolve_left fun gone => ?_, place⟩
        rw [gone] at place
        cases place
      | false => exact Or.inl place
    · exact fun _ _ _ left circulates moved => crawlerStep_outside left circulates moved
  obtain ⟨ready, readyBy⟩ := bounded (quiet + (spent + idle))
  obtain ⟨early, reached⟩ := passes ready
  let waits : Crawler Url n → Prop := fun crawler =>
    (∀ id, (crawler.workers id).atTask = false) ∧ crawler.shared.limiter.ReadyBy ready
  have now : waits (round.state idle) := ⟨outside idle le_rfl, readyBy⟩
  have waiting : waits (round.state (max idle early)) :=
    Transition.PathWith.lasts now (fun _ _ _ before circulates moved =>
      ⟨fun id => crawlerStep_outside (before.1 id) circulates moved,
        (crawlerStep_limiter before.1 circulates moved).symm ▸ before.2⟩) _ (le_max_left _ _)
  let isLate : Crawler Url n → Prop := fun crawler => ready ≤ crawler.shared.clock
  have late : isLate (round.state (max idle early)) := by
    have atFirst : isLate (path.state early) := reached
    refine Transition.PathWith.lasts atFirst
      (fun _ _ _ before _ moved => le_trans before (crawlerStep_clock moved)) _ ?_
    exact (le_max_right idle early).trans
      ((Nat.le_add_left _ spent).trans (Nat.le_add_left _ quiet))
  have leave : round.Settles fun crawler => ∀ id, crawler.workers id = .exited :=
    Transition.PathWith.settles_forall fun id =>
      (lapRank crates limit ready id).settles ⟨waiting.1, waiting.2, late⟩ (goOn id)
        fun _ _ _ gone _ moved => crawlerStep_exited gone moved
  exact Transition.PathWith.settles_of_drop (Transition.PathWith.settles_of_drop leave)

end Crawl

end PoliteCrawler
