/-
This file keeps the books of `active_tasks`. The counter covers the task queue
and the workers that owe it a decrement, up to the URLs that a worker has pushed
and not yet counted.

A run keeps this as long as nobody else pushes, no push loses its reply, and the
counter does not fall to zero while a worker is between its push and its
`fetch_add`. Then a counter that reads zero means that nothing is left to do.
-/

import PoliteCrawler.Frontier

namespace PoliteCrawler

variable {Url : Type}

/-! ### The books -/

/-- The decrement of `active_tasks` that a worker still owes. -/
def Worker.owed : Worker Url → Nat
  | .arrived _ | .stray | .acquiring _ _ _ | .requeueing _ | .releasing | .working _ _ _
  | .dropping _ => 1
  | .atLoop | .popping | .exited => 0

/-- The URLs that a worker has pushed and not yet counted. -/
def Worker.uncounted : Worker Url → Nat
  | .working _ _ (.adding count) => count
  | _ => 0

/-- The books of a counter: it covers what waits and what is owed, up to what is not yet counted;
and while something is not yet counted, it is not zero. -/
structure Covers (active waiting owed uncounted : Nat) : Prop where
  balance : waiting + owed ≤ active + uncounted
  positive : 0 < uncounted → 0 < active

theorem Covers.active_pos {active waiting owed uncounted : Nat}
    (covers : Covers active waiting owed uncounted) (owes : 0 < owed) : 0 < active := by
  rcases Nat.eq_zero_or_pos uncounted with none | some
  · have balance := covers.balance
    omega
  · exact covers.positive some

/-- A decrement that is owed. It may not be the last one while something is not yet counted. -/
theorem Covers.release {active : BitVec 64} {waiting owed uncounted : Nat}
    (covers : Covers active.toNat waiting (owed + 1) uncounted)
    (last : active ≠ 1 ∨ uncounted = 0) : Covers (active - 1).toNat waiting owed uncounted := by
  have positive := covers.active_pos (Nat.succ_pos owed)
  have released : (active - 1).toNat = active.toNat - 1 := by bv_omega
  have balance := covers.balance
  rw [released]
  refine ⟨by omega, fun some => ?_⟩
  have several : active.toNat ≠ 1 := by
    rcases last with several | none
    · bv_omega
    · omega
  omega

/-- When the counter reads zero, the queue is empty and no worker holds a URL. -/
def Crawler.CompletionSound {n : Nat} (crawler : Crawler Url n) : Prop :=
  crawler.shared.activeTasks = 0 →
    crawler.shared.service.queue.waiting = [] ∧ ∀ id, (crawler.workers id).held = none

def Crawler.Covered {n : Nat} (crawler : Crawler Url n) : Prop :=
  Covers crawler.shared.activeTasks.toNat crawler.shared.service.queue.waiting.length
    (∑ id, (crawler.workers id).owed) (∑ id, (crawler.workers id).uncounted)

theorem Worker.owed_of_held {worker : Worker Url} {url : Url} (held : worker.held = some url) :
    worker.owed = 1 := by
  cases worker <;> first | rfl | cases held

theorem Crawler.Covered.completionSound {n : Nat} {crawler : Crawler Url n}
    (covered : crawler.Covered) : crawler.CompletionSound := by
  intro zero
  have none : (∑ id, (crawler.workers id).uncounted) = 0 := by
    by_contra some
    have positive := covered.positive (Nat.pos_of_ne_zero some)
    rw [zero] at positive
    exact absurd positive (Nat.lt_irrefl 0)
  have balance := covered.balance
  rw [zero, none] at balance
  have nothing : crawler.shared.service.queue.waiting.length +
      ∑ id, (crawler.workers id).owed = 0 := Nat.le_zero.mp balance
  obtain ⟨waiting, owed⟩ := Nat.add_eq_zero_iff.mp nothing
  refine ⟨List.length_eq_zero_iff.mp waiting, fun id => ?_⟩
  rw [Finset.sum_eq_zero_iff] at owed
  cases held : (crawler.workers id).held with
  | none => rfl
  | some url =>
    have owes := Worker.owed_of_held held
    rw [owed id (Finset.mem_univ id)] at owes
    cases owes

/-! ### The runs that keep the books -/

/-- The step of a worker keeps the books: no push loses its reply, the counter does not overflow,
and it does not fall to zero while `uncounted` URLs of other workers are not yet counted. -/
def keepsCount (active : BitVec 64) (uncounted : Nat) : Worker Url → Input Url → Bool
  | .requeueing _, .redis call | .working _ _ (.pushing _ _), .redis call => call ≠ .lost
  | .stray, _ | .releasing, _ | .dropping _, _ => active ≠ 1 || uncounted = 0
  | .working _ _ (.adding count), _ => active.toNat + count < 2 ^ 64
  | _, _ => true

/-- The step of a crawl keeps the books: a worker step as above, and no push by the consumer. -/
def countsTasks {n : Nat} (crawler : Crawler Url n) : CrawlerAction Url n → Bool
  | .worker id input => keepsCount crawler.shared.activeTasks
    (∑ other ∈ Finset.univ.erase id, (crawler.workers other).uncounted) (crawler.workers id) input
  | .service (.pushSitemap call) => call = .failed
  | _ => true

/-! ### Steps -/

theorem pushTasks_waiting (service : StorageService Url) (urls : List String) {call : Call}
    (performed : call ≠ .failed) :
    (pushTasks service urls call).queue.waiting.length =
      service.queue.waiting.length + urls.length := by
  rw [pushTasks, if_neg performed]
  exact List.length_append

section Steps

variable [DecidableEq Url] {crates : Crates Url} {shared next : Shared Url}
  {worker after : Worker Url} {input : Input Url}

/-- The other tasks leave the counter alone, and their worker owes its decrement. -/
theorem TaskMoved.quiet {url : Url} {ticket : Nat} {task : Task Url}
    (moved : TaskMoved crates url ticket shared task input next worker)
    (pushes : ∀ attempt filtered, task ≠ .pushing attempt filtered)
    (adds : ∀ count, task ≠ .adding count) :
    next.activeTasks = shared.activeTasks ∧ worker.owed = 1 ∧ worker.uncounted = 0 := by
  cases moved with
  | pushed => exact absurd rfl (pushes _ _)
  | pushFailed _ _ => exact absurd rfl (pushes _ _)
  | added => exact absurd rfl (adds _)
  | sitemapDelayAsked _ goesOn | delayAsked _ goesOn =>
    rcases goesOn with rfl | ⟨_, rfl⟩ <;> exact ⟨rfl, rfl, rfl⟩
  | domainSaved goesOn => rcases goesOn with rfl | ⟨_, rfl⟩ <;> exact ⟨rfl, rfl, rfl⟩
  | pageSaved _ goesOn => rcases goesOn with rfl | ⟨_, rfl⟩ <;> exact ⟨rfl, rfl, rfl⟩
  | pageFetched _ goesOn => rcases goesOn with rfl | rfl <;> exact ⟨rfl, rfl, rfl⟩
  | _ => exact ⟨rfl, rfl, rfl⟩

theorem toNat_count {active : BitVec 64} {count : Nat} (fits : active.toNat + count < 2 ^ 64) :
    (active + BitVec.ofNat 64 count).toNat = active.toNat + count := by
  rw [BitVec.toNat_add, BitVec.toNat_ofNat, Nat.add_mod_mod, Nat.mod_eq_of_lt fits]

theorem TaskMoved.covers {url : Url} {ticket : Nat} {task : Task Url} {owed uncounted : Nat}
    (moved : TaskMoved crates url ticket shared task input next worker)
    (covers : Covers shared.activeTasks.toNat shared.service.queue.waiting.length
      (owed + (Worker.working url ticket task).owed)
      (uncounted + (Worker.working url ticket task).uncounted))
    (keeps : keepsCount shared.activeTasks uncounted (.working url ticket task) input = true) :
    Covers next.activeTasks.toNat next.service.queue.waiting.length (owed + worker.owed)
      (uncounted + worker.uncounted) := by
  have active := covers.active_pos (Nat.succ_pos owed)
  obtain ⟨balance, positive⟩ := covers
  cases task with
  | pushing attempt filtered =>
    cases moved with
    | pushed =>
      refine ⟨?_, fun _ => active⟩
      rw [pushTasks_waiting shared.service filtered (by decide)]
      simp only [Worker.owed, Worker.uncounted] at balance ⊢
      omega
    | @pushFailed _ _ call _ failed goesOn =>
      obtain rfl : call = .failed := by
        cases call with
        | answered => exact absurd rfl failed
        | lost => cases keeps
        | failed => rfl
      rcases goesOn with ⟨_, rfl⟩ | rfl <;> exact ⟨balance, positive⟩
  | adding count =>
    cases moved
    have fits : shared.activeTasks.toNat + count < 2 ^ 64 := of_decide_eq_true keeps
    rw [toNat_count fits]
    simp only [Worker.owed, Worker.uncounted] at balance ⊢
    exact ⟨by omega, by omega⟩
  | _ =>
    obtain ⟨sameActive, owes, counted⟩ := moved.quiet nofun nofun
    rw [sameActive, moved.queue_eq nofun, owes, counted]
    exact ⟨balance, positive⟩

theorem WorkerMoved.covers {owed uncounted : Nat}
    (moved : WorkerMoved crates shared worker input next after)
    (covers : Covers shared.activeTasks.toNat shared.service.queue.waiting.length
      (owed + worker.owed) (uncounted + worker.uncounted))
    (keeps : keepsCount shared.activeTasks uncounted worker input = true) :
    Covers next.activeTasks.toNat next.service.queue.waiting.length (owed + after.owed)
      (uncounted + after.uncounted) := by
  cases moved with
  | looped goesOn => rcases goesOn with rfl | rfl <;> exact covers
  | popFailed _ => exact covers
  | popLost waiting | popUnparsed waiting _ | popped waiting _ =>
    obtain ⟨balance, positive⟩ := covers
    refine ⟨?_, positive⟩
    rw [waiting, List.length_cons] at balance
    simp only [Worker.owed, Worker.uncounted, Shared.dequeue] at balance ⊢
    omega
  | stamped _ => exact covers
  | strayed _ => exact covers
  | granted _ => exact covers
  | refused => exact covers
  | requeued =>
    obtain ⟨balance, positive⟩ := covers
    refine ⟨?_, positive⟩
    rw [pushTasks_waiting shared.service _ (by decide), List.length_singleton]
    simp only [Worker.owed, Worker.uncounted] at balance ⊢
    omega
  | @requeueFailed _ call failed =>
    obtain rfl : call = .failed := by
      cases call with
      | answered => exact absurd rfl failed
      | lost => cases keeps
      | failed => rfl
    exact covers
  | released owe =>
    have last : shared.activeTasks ≠ 1 ∨ uncounted = 0 := by
      rcases owe with ⟨rfl, _⟩ | ⟨rfl, _⟩ | ⟨_, rfl, _⟩ <;> simpa [keepsCount] using keeps
    rcases owe with ⟨rfl, rfl⟩ | ⟨rfl, rfl⟩ | ⟨ends, rfl, rfl | rfl⟩ <;> exact covers.release last
  | task moved => exact moved.covers covers keeps

theorem CrawlerMoved.covered {n : Nat} {crawler next : Crawler Url n} {action : CrawlerAction Url n}
    (moved : CrawlerMoved crates crawler action next) (covered : crawler.Covered)
    (counts : countsTasks crawler action = true) : next.Covered := by
  cases moved with
  | @worker id input shared worker moved =>
    unfold Crawler.Covered at covered ⊢
    rw [← Finset.sum_erase_add Finset.univ _ (Finset.mem_univ id),
      ← Finset.sum_erase_add Finset.univ _ (Finset.mem_univ id)] at covered
    have after := moved.covers covered counts
    rw [← Transition.sum_update crawler.workers id worker Worker.owed,
      ← Transition.sum_update crawler.workers id worker Worker.uncounted] at after
    exact after
  | service moved =>
    have same : ∀ {service action}, ServiceMoved crates crawler.shared.service action service →
        countsTasks crawler (.service action) = true →
        service.queue = crawler.shared.service.queue := by
      intro service action moved counts
      cases moved with
      | pushed _ performed _ => exact absurd (of_decide_eq_true counts) performed
      | _ => rfl
    unfold Crawler.Covered at covered ⊢
    rw [same moved counts]
    exact covered
  | monitored _ _ => exact covered
  | interrupted => exact covered
  | ticked _ => exact covered

end Steps

/-! ### Runs -/

section Runs

variable {crates : Crates Url} {n : Nat}

/-- The start counts what waits in the queue. -/
theorem startUp_count {startUrl : Option String} {seed : String} {insertFails : Url → Bool}
    {service : StorageService Url} {started : StorageService Url × Nat}
    (starts : startUp crates startUrl seed insertFails service = some started) :
    started.2 = started.1.queue.waiting.length := by
  unfold startUp at starts
  split at starts
  · split at starts
    · cases starts
    · split at starts
      · cases starts
      · cases starts
        rfl
  · dsimp only at starts
    split at starts
    · cases starts
    · cases starts
      rfl
  · cases starts
    rfl

theorem covered_begin {clock : Instant} {started : StorageService Url × Nat}
    (count : started.2 = started.1.queue.waiting.length) (fits : started.2 < 2 ^ 64) :
    (Crawler.begin clock started : Crawler Url n).Covered := by
  refine ⟨?_, ?_⟩
  · have active : (BitVec.ofNat 64 started.2).toNat = started.2 := by
      rw [BitVec.toNat_ofNat, Nat.mod_eq_of_lt fits]
    show started.1.queue.waiting.length + (∑ _ : Fin n, 0) ≤
      (BitVec.ofNat 64 started.2).toNat + ∑ _ : Fin n, 0
    rw [active, count]
  · intro some
    have none : (∑ _ : Fin n, 0) = 0 := Finset.sum_const_zero
    exact absurd some (none ▸ Nat.lt_irrefl 0)

variable [DecidableEq Url]

/-- A counter that reads zero means that no work is left, in a run whose steps keep the books. -/
theorem completion_sound {startUrl : Option String} {seed : String} {insertFails : Url → Bool}
    {limit : Option (BitVec 64)} {clock : Instant} {service : StorageService Url}
    {started : StorageService Url × Nat} {crawler : Crawler Url n}
    (starts : startUp crates startUrl seed insertFails service = some started)
    (fits : started.2 < 2 ^ 64)
    (reached : Transition.ReachesWith (crawlerStep crates limit)
      (fun crawler action => countsTasks crawler action = true) (Crawler.begin clock started)
      crawler) : crawler.CompletionSound := by
  have covered := reached.invariant (covered_begin (startUp_count starts) fits)
    fun before action after covered counts moved =>
      (crawlerStep_moved crates moved).covered covered counts
  exact covered.completionSound

end Runs

/-! ### The sample web -/

/-- The worker downloads the home page, which links to the second site, and pushes the link without
counting it yet. -/
def samplePush : List (Input SampleUrl) :=
  sampleTake ++ samplePageTask ++ [.rpc DbFaults.none .answered, .proceed, .redis .answered]

/-- The link is pushed and counted, and the first worker is done. -/
theorem completion_sound_sample : ∃ started,
    sampleStart CrawlerDb.sample "https://a.example/" = some started ∧
      ∃ crawler : Crawler SampleUrl 2,
        Transition.run (crawlerStep sampleCrates none)
          ((samplePush ++ [Input.proceed, .proceed]).map (.worker 0)) (Crawler.begin 0 started) =
            some crawler ∧
        crawler.CompletionSound := by
  obtain ⟨started, starts, fits, crawler, ran⟩ : ∃ started,
      sampleStart CrawlerDb.sample "https://a.example/" = some started ∧ started.2 < 2 ^ 64 ∧
        ∃ crawler : Crawler SampleUrl 2, Transition.runWith (crawlerStep sampleCrates none)
          (fun crawler action => countsTasks crawler action = true)
          ((samplePush ++ [Input.proceed, .proceed]).map (.worker 0)) (Crawler.begin 0 started) =
            some crawler := ⟨_, rfl, by decide, _, rfl⟩
  exact ⟨started, starts, crawler, Transition.run_of_runWith ran,
    completion_sound starts fits (Transition.reachesWith_of_runWith ran)⟩

/-- The second worker takes the pushed link and is done with it before the first worker counts it:
the counter reads zero while the first worker still holds its URL. -/
theorem counter_zero_early : ∃ started,
    sampleStart CrawlerDb.sample "https://a.example/" = some started ∧
      ∃ crawler : Crawler SampleUrl 2,
        Transition.Reaches (crawlerStep sampleCrates none) (Crawler.begin 0 started) crawler ∧
        ¬ crawler.CompletionSound := by
  obtain ⟨started, starts, crawler, ran⟩ : ∃ started,
      sampleStart CrawlerDb.sample "https://a.example/" = some started ∧
        ∃ crawler : Crawler SampleUrl 2, Transition.run (crawlerStep sampleCrates none)
          (samplePush.map (.worker 0) ++ (sampleTake ++ sampleDomainTask).map (.worker 1))
          (Crawler.begin 0 started) = some crawler := ⟨_, rfl, _, rfl⟩
  have state : ((sampleStart CrawlerDb.sample "https://a.example/").bind fun started =>
      (Transition.run (crawlerStep sampleCrates none)
        (samplePush.map (.worker 0) ++ (sampleTake ++ sampleDomainTask).map (.worker 1))
        (Crawler.begin 0 started : Crawler SampleUrl 2)).map fun crawler =>
          (crawler.shared.activeTasks, (crawler.workers 0).held)) = some (0, some .home) := by
    decide +kernel
  rw [starts, Option.bind_some, ran] at state
  simp only [Option.map_some, Option.some.injEq, Prod.mk.injEq] at state
  obtain ⟨active, held⟩ := state
  refine ⟨started, starts, crawler, Transition.reaches_of_run ran, fun sound => ?_⟩
  rw [(sound active).2 0] at held
  cases held

end PoliteCrawler
