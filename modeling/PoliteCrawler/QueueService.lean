/-
This file proves that no URL starves in the task queue.

A worker that goes on comes back to its `pop_front` every time: what lies between
two pops is one URL, and the steps left to it fall in a well-founded order, with
however many links there are to ask for. The queue is first in, first out, and a
URL that the rate limiter sends back goes to its end like all others. So a URL
that waits is popped when those before it have been, or all workers leave.
-/

import PoliteCrawler.FifoQueues
import PoliteCrawler.Frontier
import PoliteCrawler.Launch
import PoliteCrawler.Shutdown

namespace PoliteCrawler

open Transition (toLex_lt_of_fst toLex_lt_of_snd)

variable {Url : Type} [DecidableEq Url] {crates : Crates Url}

/-! ### The queue of a step -/

section Steps

variable {shared next : Shared Url} {worker after : Worker Url} {input : Input Url}

/-- A worker takes the front of the queue, or takes nothing and adds to its end. -/
theorem WorkerMoved.waiting_cases (moved : WorkerMoved crates shared worker input next after) :
    (∃ text, shared.service.queue.waiting = text :: next.service.queue.waiting ∧
        worker.pops shared.service.queue input = [text]) ∨
      worker.pops shared.service.queue input = [] ∧
        ∃ more, next.service.queue.waiting = shared.service.queue.waiting ++ more := by
  have grows : ∀ {before later : TaskQueue}, before.Grows later →
      ∃ more, later.waiting = before.waiting ++ more := by
    rintro before _ ⟨urls, rfl⟩
    exact ⟨urls, rfl⟩
  cases moved with
  | @popFailed call none =>
    refine Or.inr ⟨?_, [], (List.append_nil _).symm⟩
    rcases none with rfl | empty
    · rfl
    · rw [Worker.pops, empty]
      cases call <;> rfl
  | popLost waiting | popUnparsed waiting _ | popped waiting _ =>
    refine Or.inl ⟨_, waiting, ?_⟩
    rw [Worker.pops, waiting]
    rfl
  | requeued | requeueFailed _ => exact Or.inr ⟨rfl, grows (pushTasks_grows _ _ _)⟩
  | released owed =>
    rcases owed with ⟨rfl, _⟩ | ⟨rfl, _⟩ | ⟨_, rfl, _⟩ <;>
      exact Or.inr ⟨rfl, [], (List.append_nil _).symm⟩
  | task moved => exact Or.inr ⟨rfl, grows moved.queueGrows⟩
  | _ => exact Or.inr ⟨rfl, [], (List.append_nil _).symm⟩

omit [DecidableEq Url] in
/-- The steps left to a worker until it pops, or leaves. -/
def Worker.untilPop : Worker Url → ℕ ×ₗ ℕ
  | .popping => toLex (1, 0)
  | .atLoop => toLex (1, 1)
  | worker => worker.stepsLeft

omit [DecidableEq Url] in
theorem Worker.untilPop_lt (less : after.stepsLeft < worker.stepsLeft)
    (far : toLex (1, 1) < worker.stepsLeft) : after.untilPop < worker.stepsLeft := by
  cases after with
  | popping => exact lt_trans (toLex_lt_of_fst (by decide)) less
  | atLoop => exact far
  | _ => exact less

/-- A step that pops nothing brings a worker nearer to its next pop. -/
theorem workerStep_untilPop (within : worker.WithinAttempts)
    (none : worker.pops shared.service.queue input = [])
    (moved : workerStep crates input shared worker = some (next, after)) :
    after.untilPop < worker.untilPop := by
  cases worker with
  | exited => cases moved
  | popping =>
    cases workerStep_moved moved with
    | popFailed _ => exact toLex_lt_of_fst (by decide)
    | popLost waiting | popUnparsed waiting _ | popped waiting _ =>
      rw [Worker.pops, waiting] at none
      cases none
    | released owed => rcases owed with ⟨same, _⟩ | ⟨same, _⟩ | ⟨_, same, _⟩ <;> cases same
  | atLoop =>
    cases workerStep_moved moved with
    | looped goesOn =>
      rcases goesOn with rfl | rfl
      · exact toLex_lt_of_fst (by decide)
      · exact toLex_lt_of_snd (by decide)
    | released owed => rcases owed with ⟨same, _⟩ | ⟨same, _⟩ | ⟨_, same, _⟩ <;> cases same
  | working url ticket task =>
    have less : after.stepsLeft < (Worker.working url ticket task).stepsLeft :=
      (taskStep_stepsLeft within moved).1
    refine Worker.untilPop_lt less ?_
    cases task <;> exact toLex_lt_of_fst (by decide)
  | _ =>
    refine Worker.untilPop_lt ((workerStep_moved moved).stepsLeft_lt (fun same => by cases same)
      (fun _ _ _ same => by cases same)).1 ?_
    exact toLex_lt_of_fst (by decide)

end Steps

/-! ### The crawl -/

section Crawl

variable {n : Nat} {limit : Option (BitVec 64)} {crawler next : Crawler Url n}
  {action : CrawlerAction Url n} {permitted : Crawler Url n → CrawlerAction Url n → Prop}

/-- The task queue is first in, first out. -/
theorem crawlerStep_fifo : Transition.Fifo (crawlerStep (n := n) crates limit) permitted
    (fun crawler => crawler.shared.service.queue.waiting)
    (fun crawler action => poppedBy crawler action ≠ []) where
  taken := by
    intro crawler action next _ moved pops
    cases action with
    | worker id input =>
      obtain ⟨⟨shared, worker⟩, stepped, rfl⟩ := Option.map_eq_some_iff.mp moved
      rcases (workerStep_moved stepped).waiting_cases with ⟨text, waits, _⟩ | ⟨none, _⟩
      · exact ⟨text, waits⟩
      · exact absurd none pops
    | _ => exact absurd rfl pops
  grown := by
    intro crawler action next _ moved keeps
    cases crawlerStep_moved crates moved with
    | worker worked =>
      rcases worked.waiting_cases with ⟨text, _, pops⟩ | ⟨_, grows⟩
      · exact absurd (fun none => List.cons_ne_nil _ _ (pops.symm.trans none)) keeps
      · exact grows
    | service served =>
      obtain ⟨urls, grown⟩ := served.queueGrows
      exact ⟨urls, congrArg TaskQueue.waiting grown⟩
    | _ => exact ⟨[], (List.append_nil _).symm⟩

/-- What is popped is the front of the queue. -/
theorem poppedBy_eq {text : String} {rest : List String}
    (moved : crawlerStep crates limit action crawler = some next)
    (pops : poppedBy crawler action ≠ [])
    (waits : crawler.shared.service.queue.waiting = text :: rest) :
    poppedBy crawler action = [text] := by
  cases action with
  | worker id input =>
    obtain ⟨⟨shared, worker⟩, stepped, rfl⟩ := Option.map_eq_some_iff.mp moved
    rcases (workerStep_moved stepped).waiting_cases with ⟨front, before, popped⟩ | ⟨none, _⟩
    · rw [waits] at before
      obtain rfl := (List.cons.inj before).1
      exact popped
    · exact absurd none pops
  | _ => exact absurd rfl pops

/-- A worker comes nearer to its next pop, and no other step changes how far it is. -/
theorem crawlerStep_untilPop {id : Fin n} (within : (crawler.workers id).WithinAttempts)
    (none : poppedBy crawler action = [])
    (moved : crawlerStep crates limit action crawler = some next) :
    (next.workers id).untilPop ≤ (crawler.workers id).untilPop ∧
      (action.IsOf id → (next.workers id).untilPop < (crawler.workers id).untilPop) := by
  rcases crawlerStep_worker_cases id moved with ⟨same, other⟩ | ⟨input, shared, rfl, stepped⟩
  · rw [same]
    exact ⟨le_rfl, fun turn => absurd turn other⟩
  · have less := workerStep_untilPop within none stepped
    exact ⟨less.le, fun _ => less⟩

/-- The next pop of a worker comes nearer with each of its steps. -/
def popRank (crates : Crates Url) (limit : Option (BitVec 64)) (id : Fin n)
    (permitted : Crawler Url n → CrawlerAction Url n → Prop) :
    Transition.Ranking (crawlerStep crates limit)
      (fun crawler action => permitted crawler action ∧ ¬ poppedBy crawler action ≠ [])
      (fun crawler => ∀ id, (crawler.workers id).WithinAttempts)
      (fun _ action => action.IsOf id) (ℕ ×ₗ ℕ) where
  rank crawler := (crawler.workers id).untilPop
  keeps _ _ _ attempts _ moved := crawlerStep_withinAttempts attempts moved
  bounds _ _ _ attempts allowed moved :=
    (crawlerStep_untilPop (attempts id) (not_not.mp allowed.2) moved).1
  lowers _ _ _ attempts allowed turn moved :=
    (crawlerStep_untilPop (attempts id) (not_not.mp allowed.2) moved).2 turn

/-- In a run in which the workers that have not left go on, a URL that waits in the queue is popped
when those before it have been, or all workers leave their loops. -/
theorem queue_served {path : Transition.PathWith (crawlerStep (n := n) crates limit) permitted}
    (attempts : ∀ id, ((path.state 0).workers id).WithinAttempts)
    (turns : ∀ id, path.Recurs fun crawler action =>
      crawler.workers id = .exited ∨ action.IsOf id)
    {time : Nat} {front back : List String} {text : String}
    (waits : (path.state time).shared.service.queue.waiting = front ++ text :: back) :
    (∃ later, time ≤ later ∧ poppedBy (path.state later) (path.action later) = [text] ∧
      ∃ more, (path.state later).shared.service.queue.waiting = text :: (back ++ more)) ∨
      path.Settles fun crawler => ∀ id, crawler.workers id = .exited := by
  by_cases leave : ∀ id, ∃ gone, (path.state gone).workers id = .exited
  · refine Or.inr (Transition.PathWith.settles_forall fun id => ?_)
    obtain ⟨gone, exited⟩ := leave id
    let left : Crawler Url n → Prop := fun crawler => crawler.workers id = .exited
    have now : left (path.state gone) := exited
    exact ⟨gone, Transition.PathWith.lasts now fun _ _ _ before _ moved =>
      crawlerStep_exited before moved⟩
  · obtain ⟨id, stays⟩ := not_forall.mp leave
    have within : ∀ early id, ((path.state early).workers id).WithinAttempts := fun early =>
      (path.reaches early).invariant attempts
        fun _ _ _ kept _ moved => crawlerStep_withinAttempts kept moved
    have goesOn : ∀ early, ∃ later, early ≤ later ∧
        poppedBy (path.state later) (path.action later) ≠ [] := by
      intro early
      refine (popRank crates limit id permitted).leadsTo (within early) fun begun => ?_
      obtain ⟨later, after, turn⟩ := turns id begun
      exact ⟨later, after, fun _ => Or.inr (turn.resolve_left fun gone => stays ⟨later, gone⟩)⟩
    obtain ⟨later, after, pops, more, served⟩ :=
      crawlerStep_fifo.taken_in_turn (fun early _ => goesOn early) waits
    exact Or.inl ⟨later, after, poppedBy_eq (path.moves later) pops served, more, served⟩

end Crawl

/-! ### The sample web -/

/-- The worker crawls the home page, whose link is seen already, and then the second site, and
finds the queue empty. -/
def sampleInTurn : List (CrawlerAction SampleUrl 1) :=
  (sampleTake ++ samplePageTask ++ [Input.rpc DbFaults.none .answered, .proceed, .proceed] ++
    sampleTake ++ samplePageTask ++
    [Input.proceed, .proceed, .proceed, .redis .answered]).map (.worker (Fin.last 0))

/-- The second of the seeds is popped after the first. -/
theorem queue_served_sample : ∃ started,
    sampleStart (CrawlerDb.sample.upsertDomain ⟨"b.example", none, 0⟩)
      "https://a.example/ https://b.example/" = some started ∧
      ∃ path : Transition.Path (crawlerStep (n := 1) sampleCrates none),
        path.state 0 = Crawler.begin 0 started ∧
          ((∃ later, 0 ≤ later ∧
            poppedBy (path.state later) (path.action later) = ["https://b.example/"] ∧
            ∃ more, (path.state later).shared.service.queue.waiting =
              "https://b.example/" :: ([] ++ more)) ∨
            path.Settles fun crawler => ∀ id, crawler.workers id = .exited) := by
  obtain ⟨started, starts, waits, final, ran, gone⟩ : ∃ started,
      sampleStart (CrawlerDb.sample.upsertDomain ⟨"b.example", none, 0⟩)
        "https://a.example/ https://b.example/" = some started ∧
        started.1.queue.waiting = ["https://a.example/", "https://b.example/"] ∧
        ∃ final : Crawler SampleUrl 1, Transition.run (crawlerStep sampleCrates none) sampleInTurn
          (Crawler.begin 0 started) = some final ∧ final.workers (Fin.last 0) = .exited :=
    ⟨_, rfl, rfl, _, rfl, rfl⟩
  have stays : crawlerStep sampleCrates none (.tick 0) final = some final := by
    rw [crawlerStep, Nat.cast_zero, add_zero]
  obtain ⟨path, begins, _, ends⟩ := Transition.PathWith.exists_of_run
    (Transition.permits_of_all fun _ _ => trivial) ran trivial stays
  refine ⟨started, starts, path, begins, queue_served (fun id => ?_) (fun id time => ?_)
    (?_ : _ = ["https://a.example/"] ++ "https://b.example/" :: [])⟩
  · rw [begins]
    trivial
  · refine ⟨max time sampleInTurn.length, le_max_left _ _, Or.inl ?_⟩
    rw [(ends _ (le_max_right _ _)).1]
    exact (congrArg final.workers (Subsingleton.elim id (Fin.last 0))).trans gone
  · rw [begins]
    exact waits

end PoliteCrawler
