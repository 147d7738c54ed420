/-
This file balances the books of `active_tasks` exactly: up to wrap-around, the
counter and the URLs that are pushed but not yet counted make up the queue and
the workers that owe a decrement.

Every way out of the worker loop changes the counter once, so the balance holds
in every run in which only the workers push and a queue call that reports an
error has had no effect. When the last worker has gone, the balance says that
the counter reads what is left in the queue. A crawl hangs when that is not
zero: a worker that leaves with an error does not ask whether others stay.
-/

import PoliteCrawler.TaskAccounting
import Mathlib.Data.Nat.ModEq

namespace PoliteCrawler

variable {Url : Type}

/-! ### The balance -/

/-- A wrapping counter balances when it and what is not yet counted are what waits and what is
owed. -/
def Balances (active : BitVec 64) (waiting owed uncounted : Nat) : Prop :=
  active.toNat + uncounted ≡ waiting + owed [MOD 2 ^ 64]

theorem balances_start (count : Nat) : Balances (BitVec.ofNat 64 count) count 0 0 := by
  show BitVec.toNat _ ≡ count [MOD 2 ^ 64]
  rw [BitVec.toNat_ofNat]
  exact Nat.mod_modEq count (2 ^ 64)

/-- A decrement that is owed. -/
theorem Balances.release {active : BitVec 64} {waiting owed uncounted : Nat}
    (balances : Balances active waiting (owed + 1) uncounted) :
    Balances (active - 1) waiting owed uncounted := by
  have decremented : (active - 1).toNat + 1 ≡ active.toNat [MOD 2 ^ 64] := by
    have back : active - 1 + 1 = active := BitVec.sub_add_cancel active 1
    have sum := BitVec.toNat_add (active - 1) 1
    rw [back] at sum
    rw [sum]
    exact (Nat.mod_modEq _ _).symm
  refine Nat.ModEq.add_right_cancel' 1 ?_
  calc (active - 1).toNat + uncounted + 1
      = (active - 1).toNat + 1 + uncounted := Nat.add_right_comm _ _ _
    _ ≡ active.toNat + uncounted [MOD 2 ^ 64] := decremented.add_right uncounted
    _ ≡ waiting + owed + 1 [MOD 2 ^ 64] := balances

/-- An increment by what is not yet counted. -/
theorem Balances.count {active : BitVec 64} {waiting owed uncounted count : Nat}
    (balances : Balances active waiting owed (uncounted + count)) :
    Balances (active + BitVec.ofNat 64 count) waiting owed uncounted := by
  have incremented : (active + BitVec.ofNat 64 count).toNat ≡ active.toNat + count [MOD 2 ^ 64] := by
    rw [BitVec.toNat_add, BitVec.toNat_ofNat, Nat.add_mod_mod]
    exact Nat.mod_modEq _ _
  calc (active + BitVec.ofNat 64 count).toNat + uncounted
      ≡ active.toNat + count + uncounted [MOD 2 ^ 64] := incremented.add_right uncounted
    _ = active.toNat + (uncounted + count) := by rw [Nat.add_assoc, Nat.add_comm count]
    _ ≡ waiting + owed [MOD 2 ^ 64] := balances

/-- The counter and the URLs that are pushed but not yet counted, against the queue and the URLs
that are popped and not yet finished, re-queued or dropped. -/
def Crawler.Balanced {n : Nat} (crawler : Crawler Url n) : Prop :=
  Balances crawler.shared.activeTasks crawler.shared.service.queue.waiting.length
    (∑ id, (crawler.workers id).owed) (∑ id, (crawler.workers id).uncounted)

/-! ### What the workers push parses -/

/-- The URLs a worker has found new and not yet pushed. -/
def Worker.filtered : Worker Url → List String
  | .working _ _ (.inserting _ filtered) | .working _ _ (.pushing _ filtered) => filtered
  | _ => []

/-- Every one of the texts is a URL. -/
def AllParse (crates : Crates Url) (texts : List String) : Prop :=
  ∀ text ∈ texts, ∃ url, crates.url.parse text = .ok url

/-- What a worker is to push are URLs. -/
def Worker.FindsUrls (crates : Crates Url) (worker : Worker Url) : Prop :=
  AllParse crates worker.filtered

theorem AllParse.nil (crates : Crates Url) : AllParse crates [] := fun _ member =>
  absurd member List.not_mem_nil

theorem AllParse.append {crates : Crates Url} {texts more : List String}
    (first : AllParse crates texts) (second : AllParse crates more) :
    AllParse crates (texts ++ more) := fun text member =>
  (List.mem_append.mp member).elim (first text) (second text)

theorem allParse_asStr (crates : Crates Url) (url : Url) :
    AllParse crates [crates.url.asStr url] := by
  rintro _ member
  rw [List.mem_singleton.mp member]
  exact ⟨url, crates.url.parse_asStr url⟩

theorem AllParse.pushTasks {crates : Crates Url} {service : StorageService Url}
    {urls : List String} (waiting : AllParse crates service.queue.waiting)
    (pushed : AllParse crates urls) (call : Call) :
    AllParse crates (pushTasks service urls call).queue.waiting := by
  unfold PoliteCrawler.pushTasks
  split
  · exact waiting
  · exact waiting.append pushed

/-! ### The runs that keep the balance -/

/-- The queue call of a worker, if it makes one, is answered or has no effect. -/
def queueCallHonest : Worker Url → Input Url → Bool
  | .popping, .redis call | .requeueing _, .redis call | .working _ _ (.pushing _ _), .redis call =>
    call ≠ .lost
  | _, _ => true

/-- Only workers push, and a queue call that reports an error has no effect. -/
def onlyWorkersPush {n : Nat} (crawler : Crawler Url n) : CrawlerAction Url n → Bool
  | .worker id input => queueCallHonest (crawler.workers id) input
  | .service (.pushSitemap call) => call = .failed
  | _ => true

/-! ### Steps -/

section Steps

variable [DecidableEq Url] {crates : Crates Url} {shared next : Shared Url}
  {worker after : Worker Url} {input : Input Url}

/-- The URLs a task finds are those of links. -/
theorem TaskMoved.findsUrls {url : Url} {ticket : Nat} {task : Task Url}
    (moved : TaskMoved crates url ticket shared task input next worker)
    (finds : (Worker.working url ticket task).FindsUrls crates) : worker.FindsUrls crates := by
  cases moved with
  | linkInserted _ goesOn =>
    rcases goesOn with rfl | rfl
    · exact AllParse.append finds (allParse_asStr crates _)
    · exact finds
  | someFound _ => exact finds
  | pushFailed _ goesOn => rcases goesOn with ⟨_, rfl⟩ | rfl <;> [exact nofun; exact finds]
  | domainSaved goesOn => rcases goesOn with rfl | ⟨_, rfl⟩ <;> exact nofun
  | sitemapDelayAsked _ goesOn => rcases goesOn with rfl | ⟨_, rfl⟩ <;> exact nofun
  | delayAsked _ goesOn => rcases goesOn with rfl | ⟨_, rfl⟩ <;> exact nofun
  | pageSaved _ goesOn => rcases goesOn with rfl | ⟨_, rfl⟩ <;> exact nofun
  | pageFetched _ goesOn => rcases goesOn with rfl | rfl <;> exact nofun
  | _ => exact nofun

theorem WorkerMoved.findsUrls (moved : WorkerMoved crates shared worker input next after)
    (finds : worker.FindsUrls crates) : after.FindsUrls crates := by
  cases moved with
  | task moved => exact moved.findsUrls finds
  | looped goesOn => rcases goesOn with rfl | rfl <;> exact nofun
  | released owed =>
    rcases owed with ⟨_, rfl⟩ | ⟨_, rfl⟩ | ⟨_, _, rfl | rfl⟩ <;> exact nofun
  | _ => exact nofun

/-- What a worker leaves in the queue was there, or is a URL. -/
theorem WorkerMoved.waitingParses (moved : WorkerMoved crates shared worker input next after)
    (waiting : AllParse crates shared.service.queue.waiting)
    (finds : worker.FindsUrls crates) : AllParse crates next.service.queue.waiting := by
  cases moved with
  | popLost front | popUnparsed front _ | popped front _ =>
    intro text member
    exact waiting text (front ▸ List.mem_cons_of_mem _ member)
  | requeued => exact waiting.pushTasks (allParse_asStr crates _) _
  | requeueFailed _ => exact waiting.pushTasks (allParse_asStr crates _) _
  | @task url ticket task _ _ _ moved =>
    cases task with
    | pushing attempt filtered => cases moved <;> exact waiting.pushTasks finds _
    | _ =>
      rw [moved.queue_eq nofun]
      exact waiting
  | _ => exact waiting

theorem TaskMoved.balances {url : Url} {ticket : Nat} {task : Task Url} {owed uncounted : Nat}
    (moved : TaskMoved crates url ticket shared task input next worker)
    (balances : Balances shared.activeTasks shared.service.queue.waiting.length
      (owed + (Worker.working url ticket task).owed)
      (uncounted + (Worker.working url ticket task).uncounted))
    (honest : queueCallHonest (.working url ticket task) input = true) :
    Balances next.activeTasks next.service.queue.waiting.length (owed + worker.owed)
      (uncounted + worker.uncounted) := by
  cases task with
  | pushing attempt filtered =>
    cases moved with
    | pushed =>
      show Balances shared.activeTasks _ (owed + 1) (uncounted + filtered.length)
      rw [pushTasks_waiting shared.service filtered (by decide)]
      have both := Nat.ModEq.add_right filtered.length balances
      simp only [Worker.owed, Worker.uncounted, Nat.add_zero] at both
      unfold Balances
      rw [← Nat.add_assoc, Nat.add_right_comm _ filtered.length]
      exact both
    | @pushFailed _ _ call _ failed goesOn =>
      obtain rfl : call = .failed := by
        cases call with
        | answered => exact absurd rfl failed
        | lost => cases honest
        | failed => rfl
      rcases goesOn with ⟨_, rfl⟩ | rfl <;> exact balances
  | adding count =>
    cases moved
    exact balances.count
  | _ =>
    obtain ⟨sameActive, owes, counted⟩ := moved.quiet (by rintro _ _ ⟨⟩) (by rintro _ ⟨⟩)
    rw [sameActive, moved.queue_eq (by rintro _ _ ⟨⟩), owes, counted]
    exact balances

/-- Each way out of the loop changes the counter once. An entry that is popped and does not parse
would be none of them: its worker ends without a decrement. -/
theorem WorkerMoved.balances {owed uncounted : Nat}
    (moved : WorkerMoved crates shared worker input next after)
    (balances : Balances shared.activeTasks shared.service.queue.waiting.length
      (owed + worker.owed) (uncounted + worker.uncounted))
    (parses : AllParse crates shared.service.queue.waiting)
    (honest : queueCallHonest worker input = true) :
    Balances next.activeTasks next.service.queue.waiting.length (owed + after.owed)
      (uncounted + after.uncounted) := by
  cases moved with
  | looped goesOn => rcases goesOn with rfl | rfl <;> exact balances
  | popFailed _ => exact balances
  | popLost _ => cases honest
  | @popUnparsed text _ _ waiting unparsed =>
    obtain ⟨url, parsed⟩ := parses text (waiting ▸ List.mem_cons_self)
    rw [unparsed] at parsed
    cases parsed
  | @popped text rest _ waiting _ =>
    rw [waiting, List.length_cons] at balances
    show Balances shared.activeTasks rest.length (owed + 1) uncounted
    unfold Balances at balances ⊢
    rwa [Nat.add_right_comm] at balances
  | stamped _ => exact balances
  | strayed _ => exact balances
  | granted _ => exact balances
  | refused => exact balances
  | requeued =>
    show Balances shared.activeTasks _ owed uncounted
    rw [pushTasks_waiting shared.service _ (by decide), List.length_singleton]
    unfold Balances at balances ⊢
    rw [Nat.add_right_comm]
    exact balances
  | @requeueFailed _ call failed =>
    obtain rfl : call = .failed := by
      cases call with
      | answered => exact absurd rfl failed
      | lost => cases honest
      | failed => rfl
    exact balances
  | released owe =>
    rcases owe with ⟨rfl, rfl⟩ | ⟨rfl, rfl⟩ | ⟨ends, rfl, rfl | rfl⟩ <;> exact balances.release
  | task moved => exact moved.balances balances honest

/-- The balance, and that every text on its way through the queue is a URL. -/
structure Crawler.InBalance (crates : Crates Url) {n : Nat} (crawler : Crawler Url n) : Prop where
  balanced : crawler.Balanced
  waiting : AllParse crates crawler.shared.service.queue.waiting
  finds : ∀ id, (crawler.workers id).FindsUrls crates

omit [DecidableEq Url] in
theorem ServiceMoved.sameQueue {n : Nat} {crawler : Crawler Url n} {service : StorageService Url}
    {action : ServiceAction Url}
    (moved : ServiceMoved crates crawler.shared.service action service)
    (pushes : onlyWorkersPush crawler (.service action) = true) :
    service.queue = crawler.shared.service.queue := by
  cases moved with
  | pushed _ performed _ => exact absurd (of_decide_eq_true pushes) performed
  | _ => rfl

theorem CrawlerMoved.inBalance {n : Nat} {crawler next : Crawler Url n}
    {action : CrawlerAction Url n} (moved : CrawlerMoved crates crawler action next)
    (inBalance : crawler.InBalance crates) (pushes : onlyWorkersPush crawler action = true) :
    next.InBalance crates := by
  obtain ⟨balanced, waiting, finds⟩ := inBalance
  cases moved with
  | @worker id input shared worker moved =>
    refine ⟨?_, moved.waitingParses waiting (finds id),
      Transition.forall_update finds (moved.findsUrls (finds id))⟩
    unfold Crawler.Balanced at balanced ⊢
    rw [← Finset.sum_erase_add Finset.univ _ (Finset.mem_univ id),
      ← Finset.sum_erase_add Finset.univ _ (Finset.mem_univ id)] at balanced
    have after := moved.balances balanced waiting pushes
    rw [← Transition.sum_update crawler.workers id worker Worker.owed,
      ← Transition.sum_update crawler.workers id worker Worker.uncounted] at after
    exact after
  | service moved =>
    have same := moved.sameQueue pushes
    refine ⟨?_, ?_, finds⟩
    · unfold Crawler.Balanced at balanced ⊢
      rw [same]
      exact balanced
    · rw [same]
      exact waiting
  | monitored _ _ => exact ⟨balanced, waiting, finds⟩
  | interrupted => exact ⟨balanced, waiting, finds⟩
  | ticked _ => exact ⟨balanced, waiting, finds⟩

end Steps

/-! ### Runs -/

section Runs

variable {crates : Crates Url} {n : Nat}

theorem balanced_begin {clock : Instant} {started : StorageService Url × Nat}
    (count : started.2 = started.1.queue.waiting.length) :
    (Crawler.begin clock started : Crawler Url n).Balanced := by
  have none : (∑ _ : Fin n, 0) = 0 := Finset.sum_const_zero
  show Balances (BitVec.ofNat 64 started.2) started.1.queue.waiting.length (∑ _ : Fin n, 0)
    (∑ _ : Fin n, 0)
  rw [none, count]
  exact balances_start _

/-- The start leaves URLs in the queue: that of the call, those of the seed file, or what was
there. -/
theorem startUp_waitingParses {startUrl : Option String} {seed : String} {insertFails : Url → Bool}
    {service : StorageService Url} {started : StorageService Url × Nat}
    (parses : AllParse crates service.queue.waiting)
    (starts : startUp crates startUrl seed insertFails service = some started) :
    AllParse crates started.1.queue.waiting := by
  unfold startUp at starts
  split at starts
  · split at starts
    · cases starts
    · split at starts
      · cases starts
      · cases starts
        exact allParse_asStr crates _
  · dsimp only at starts
    split at starts
    · cases starts
    · cases starts
      intro text member
      have parsed := (List.mem_filter.mp member).2
      cases result : crates.url.parse text with
      | ok url => exact ⟨url, rfl⟩
      | error reason =>
        rw [result] at parsed
        cases parsed
  · cases starts
    exact parses

variable [DecidableEq Url]

/-- The counter is conserved in every run in which only the workers push and a queue call that
reports an error has had no effect. -/
theorem tasks_conserved {startUrl : Option String} {seed : String} {insertFails : Url → Bool}
    {limit : Option (BitVec 64)} {clock : Instant} {service : StorageService Url}
    {started : StorageService Url × Nat} {crawler : Crawler Url n}
    (parses : AllParse crates service.queue.waiting)
    (starts : startUp crates startUrl seed insertFails service = some started)
    (reached : Transition.ReachesWith (crawlerStep crates limit)
      (fun crawler action => onlyWorkersPush crawler action = true) (Crawler.begin clock started)
      crawler) : crawler.Balanced := by
  have start : (Crawler.begin clock started : Crawler Url n).InBalance crates :=
    ⟨balanced_begin (startUp_count starts), startUp_waitingParses parses starts, fun _ => nofun⟩
  have inBalance := reached.invariant start fun before action after inBalance pushes moved =>
    (crawlerStep_moved crates moved).inBalance inBalance pushes
  exact inBalance.balanced

end Runs

/-! ### Crawls that hang -/

def Worker.hasExited : Worker Url → Bool
  | .exited => true
  | _ => false

/-- The limit of pages, if there is one, is reached. -/
def limitReached (limit : Option (BitVec 64)) (shared : Shared Url) : Bool :=
  limit.any fun limit => limit ≤ shared.pagesCrawled

/-- Nobody is left to work, and the monitor sees no reason to end the crawl. -/
structure Crawler.Hung (limit : Option (BitVec 64)) {n : Nat} (crawler : Crawler Url n) : Prop where
  gone : ∀ id, (crawler.workers id).hasExited = true
  running : crawler.shared.cancelled = false
  unlimited : limitReached limit crawler.shared = false
  counted : crawler.shared.activeTasks ≠ 0

/-- The step ends the worker without a look at the queue: a pop that fails, a panic, or a third
push that fails. -/
def leavesWithError : Worker Url → Input Url → Bool
  | .popping, .redis call => call = .failed
  | .dropping ends, _ => ends
  | _, _ => false

/-- The worker may leave: the limit is reached, nothing waits, or somebody stays. -/
def mayLeave (limit : Option (BitVec 64)) {n : Nat} (crawler : Crawler Url n) (id : Fin n) : Bool :=
  limitReached limit crawler.shared || crawler.shared.service.queue.waiting = [] ||
    decide (∃ other, other ≠ id ∧ (crawler.workers other).hasExited = false)

/-- A worker that leaves with an error may leave. -/
def leavesFew (limit : Option (BitVec 64)) {n : Nat} (crawler : Crawler Url n) :
    CrawlerAction Url n → Bool
  | .worker id input => !leavesWithError (crawler.workers id) input || mayLeave limit crawler id
  | _ => true

/-- Until shutdown is cancelled only workers push, their queue calls are answered or have no
effect, and the last of them does not leave with an error while URLs wait. -/
def keepsGoing (limit : Option (BitVec 64)) {n : Nat} (crawler : Crawler Url n)
    (action : CrawlerAction Url n) : Bool :=
  crawler.shared.cancelled || onlyWorkersPush crawler action && leavesFew limit crawler action

section Hanging

variable [DecidableEq Url] {crates : Crates Url} {n : Nat} {limit : Option (BitVec 64)}
  {crawler next : Crawler Url n}

/-- A task ends in a drop of the guard. -/
theorem TaskMoved.owes {url : Url} {ticket : Nat} {shared after : Shared Url} {task : Task Url}
    {input : Input Url} {worker : Worker Url}
    (moved : TaskMoved crates url ticket shared task input after worker) : worker.owed = 1 := by
  cases task with
  | pushing attempt filtered =>
    cases moved with
    | pushed => rfl
    | pushFailed _ goesOn => rcases goesOn with ⟨_, rfl⟩ | rfl <;> rfl
  | adding count =>
    cases moved
    rfl
  | _ => exact (moved.quiet nofun nofun).2.1

theorem WorkerMoved.cancelled_eq {shared after : Shared Url} {worker left : Worker Url}
    {input : Input Url} (moved : WorkerMoved crates shared worker input after left) :
    after.cancelled = shared.cancelled := by
  cases moved with
  | task moved => cases moved <;> rfl
  | _ => rfl

/-- A crawl that hangs goes on hanging until it is interrupted. -/
theorem Crawler.Hung.stays {action : CrawlerAction Url n} (hung : crawler.Hung limit)
    (moved : crawlerStep crates limit action crawler = some next)
    (uninterrupted : action ≠ .interrupt) : next.Hung limit := by
  obtain ⟨gone, running, unlimited, counted⟩ := hung
  cases action with
  | worker id input =>
    have exited := gone id
    cases worker : crawler.workers id <;> rw [worker] at exited <;> cases exited
    rw [crawlerStep, worker] at moved
    cases moved
  | service action =>
    obtain ⟨service, _, rfl⟩ := Option.map_eq_some_iff.mp moved
    exact ⟨gone, running, unlimited, counted⟩
  | monitor =>
    have same : monitorStep limit crawler = crawler := by
      rw [monitorStep, if_neg (by rw [running]; decide), if_neg]
      rintro (zero | reached)
      · exact counted zero
      · rw [limitReached, reached] at unlimited
        cases unlimited
    rw [crawlerStep, same] at moved
    split at moved <;> cases moved
    exact ⟨gone, running, unlimited, counted⟩
  | interrupt => exact absurd rfl uninterrupted
  | tick elapsed =>
    cases moved
    exact ⟨gone, running, unlimited, counted⟩

theorem crawlerStep_cancelled {action : CrawlerAction Url n}
    (moved : crawlerStep crates limit action crawler = some next)
    (cancelled : crawler.shared.cancelled = true) : next.shared.cancelled = true := by
  cases action with
  | worker id input =>
    obtain ⟨⟨shared, worker⟩, stepped, rfl⟩ := Option.map_eq_some_iff.mp moved
    exact (workerStep_moved stepped).cancelled_eq.trans cancelled
  | service action =>
    obtain ⟨service, _, rfl⟩ := Option.map_eq_some_iff.mp moved
    exact cancelled
  | monitor =>
    have stops : monitorStep limit crawler = { crawler with monitoring := false } := by
      rw [monitorStep, if_pos cancelled]
    rw [crawlerStep, stops] at moved
    split at moved <;> cases moved
    exact cancelled
  | interrupt =>
    cases moved
    rfl
  | tick elapsed =>
    cases moved
    exact cancelled

/-- A worker that leaves has seen the shutdown, has found nothing to pop, or has met an error. -/
theorem workerStep_leaves {shared after : Shared Url} {worker left : Worker Url} {input : Input Url}
    (moved : workerStep crates input shared worker = some (after, left))
    (exits : left.hasExited = true) (honest : queueCallHonest worker input = true)
    (parses : AllParse crates shared.service.queue.waiting) :
    (shared.cancelled = true ∨ shared.service.queue.waiting = [] ∨
      leavesWithError worker input = true) ∧
      after.service.queue = shared.service.queue ∧ after.pagesCrawled = shared.pagesCrawled := by
  cases worker with
  | atLoop =>
    cases input <;> cases moved
    cases cancelled : shared.cancelled with
    | true => exact ⟨Or.inl rfl, rfl, rfl⟩
    | false =>
      rw [cancelled] at exits
      cases exits
  | popping =>
    cases workerStep_moved moved with
    | popFailed none =>
      rcases none with rfl | none
      · exact ⟨Or.inr (Or.inr rfl), rfl, rfl⟩
      · exact ⟨Or.inr (Or.inl none), rfl, rfl⟩
    | popLost _ => cases honest
    | @popUnparsed text _ _ waiting unparsed =>
      obtain ⟨url, parsed⟩ := parses text (waiting ▸ List.mem_cons_self)
      rw [unparsed] at parsed
      cases parsed
    | popped _ _ => cases exits
    | released owed => rcases owed with ⟨absent, _⟩ | ⟨absent, _⟩ | ⟨_, absent, _⟩ <;> cases absent
  | dropping ends =>
    cases input <;> cases moved
    cases ends with
    | true => exact ⟨Or.inr (Or.inr rfl), rfl, rfl⟩
    | false => cases exits
  | working url ticket task =>
    cases workerStep_moved moved with
    | released owed => rcases owed with ⟨absent, _⟩ | ⟨absent, _⟩ | ⟨_, absent, _⟩ <;> cases absent
    | task moved =>
      have owes := moved.owes
      cases left <;> first | cases owes; done | cases exits
  | _ =>
    have stays := workerStep_moved moved
    cases stays with
    | released owed =>
      rcases owed with ⟨_, rfl⟩ | ⟨_, rfl⟩ | ⟨_, absent, _⟩
      · cases exits
      · cases exits
      · cases absent
    | _ => cases exits

/-- The last worker leaves an empty queue, or a crawl that is at its limit. -/
def Crawler.EndsEmpty (limit : Option (BitVec 64)) (crawler : Crawler Url n) : Prop :=
  (∀ id, (crawler.workers id).hasExited = true) →
    limitReached limit crawler.shared = true ∨ crawler.shared.service.queue.waiting = []

omit [DecidableEq Url] in
theorem Crawler.EndsEmpty.sameQueue (ends : crawler.EndsEmpty limit)
    (workers : next.workers = crawler.workers)
    (queue : next.shared.service.queue = crawler.shared.service.queue)
    (pages : next.shared.pagesCrawled = crawler.shared.pagesCrawled) : next.EndsEmpty limit := by
  unfold Crawler.EndsEmpty limitReached
  rw [workers, queue, pages]
  exact ends

/-- Until shutdown is cancelled the books balance, and the last worker leaves nothing. -/
def Crawler.KeptUp (crates : Crates Url) (limit : Option (BitVec 64)) (crawler : Crawler Url n) :
    Prop :=
  crawler.shared.cancelled = true ∨ crawler.InBalance crates ∧ crawler.EndsEmpty limit

theorem crawlerStep_endsEmpty {action : CrawlerAction Url n}
    (moved : crawlerStep crates limit action crawler = some next)
    (running : crawler.shared.cancelled = false) (inBalance : crawler.InBalance crates)
    (ends : crawler.EndsEmpty limit) (keeps : keepsGoing limit crawler action = true) :
    next.EndsEmpty limit := by
  rw [keepsGoing, running, Bool.false_or, Bool.and_eq_true] at keeps
  obtain ⟨pushes, leaves⟩ := keeps
  cases action with
  | worker id input =>
    obtain ⟨⟨shared, worker⟩, stepped, rfl⟩ := Option.map_eq_some_iff.mp moved
    intro gone
    have pool : ∀ other, (Function.update crawler.workers id worker other).hasExited = true := gone
    have exits : worker.hasExited = true := by
      have left := pool id
      rwa [Function.update_self] at left
    obtain ⟨reason, queue, pages⟩ := workerStep_leaves stepped exits pushes inBalance.waiting
    show limit.any (fun limit => limit ≤ shared.pagesCrawled) = true ∨
      shared.service.queue.waiting = []
    rw [queue, pages]
    rcases reason with cancelled | nothing | error
    · rw [running] at cancelled
      cases cancelled
    · exact Or.inr nothing
    · rw [leavesFew, error, Bool.not_true, Bool.false_or, mayLeave, Bool.or_eq_true,
        Bool.or_eq_true] at leaves
      rcases leaves with (reached | nothing) | stays
      · exact Or.inl reached
      · exact Or.inr (of_decide_eq_true nothing)
      · -- somebody else is still there
        obtain ⟨other, different, present⟩ := of_decide_eq_true stays
        have left := pool other
        rw [Function.update_of_ne different, present] at left
        cases left
  | service action =>
    cases crawlerStep_moved crates moved with
    | service served => exact ends.sameQueue rfl (served.sameQueue pushes) rfl
  | monitor =>
    cases crawlerStep_moved crates moved with
    | monitored _ _ => exact ends.sameQueue rfl rfl rfl
  | interrupt =>
    cases moved
    exact ends.sameQueue rfl rfl rfl
  | tick elapsed =>
    cases moved
    exact ends.sameQueue rfl rfl rfl

omit [DecidableEq Url] in
/-- With the books in balance, the counter of a crawl whose workers are gone is what waits. -/
theorem Crawler.Balanced.gone (balanced : crawler.Balanced)
    (gone : ∀ id, (crawler.workers id).hasExited = true)
    (nothing : crawler.shared.service.queue.waiting = []) : crawler.shared.activeTasks = 0 := by
  have exited : ∀ id, crawler.workers id = .exited := fun id => by
    have left := gone id
    cases worker : crawler.workers id <;> rw [worker] at left <;> first | rfl | cases left
  have congruent : crawler.shared.activeTasks.toNat ≡ 0 [MOD 2 ^ 64] := by
    unfold Crawler.Balanced Balances at balanced
    simpa [exited, nothing, Worker.owed, Worker.uncounted] using balanced
  have zero : crawler.shared.activeTasks.toNat = 0 :=
    Nat.ModEq.eq_of_lt_of_lt congruent crawler.shared.activeTasks.isLt (by decide)
  exact BitVec.eq_of_toNat_eq zero

theorem crawlerStep_keptUp {action : CrawlerAction Url n}
    (moved : crawlerStep crates limit action crawler = some next)
    (kept : crawler.KeptUp crates limit) (keeps : keepsGoing limit crawler action = true) :
    next.KeptUp crates limit := by
  cases running : crawler.shared.cancelled with
  | true => exact Or.inl (crawlerStep_cancelled moved running)
  | false =>
    obtain ⟨inBalance, ends⟩ := kept.resolve_left (by rw [running]; decide)
    have pushes : onlyWorkersPush crawler action = true := by
      rw [keepsGoing, running, Bool.false_or, Bool.and_eq_true] at keeps
      exact keeps.1
    exact Or.inr ⟨(crawlerStep_moved crates moved).inBalance inBalance pushes,
      crawlerStep_endsEmpty moved running inBalance ends keeps⟩

/-- A crawl whose steps all keep it going does not hang. -/
theorem never_hung {startUrl : Option String} {seed : String} {insertFails : Url → Bool}
    {clock : Instant} {service : StorageService Url} {started : StorageService Url × Nat}
    (workers : 0 < n) (parses : AllParse crates service.queue.waiting)
    (starts : startUp crates startUrl seed insertFails service = some started)
    (reached : Transition.ReachesWith (crawlerStep crates limit)
      (fun crawler action => keepsGoing limit crawler action = true) (Crawler.begin clock started)
      crawler) : ¬ crawler.Hung limit := by
  have start : (Crawler.begin clock started : Crawler Url n).InBalance crates :=
    ⟨balanced_begin (startUp_count starts), startUp_waitingParses parses starts, fun _ => nofun⟩
  have staffed : (Crawler.begin clock started : Crawler Url n).EndsEmpty limit := by
    intro gone
    cases gone ⟨0, workers⟩
  have kept : crawler.KeptUp crates limit :=
    reached.invariant (Or.inr ⟨start, staffed⟩) fun before action after holds keeps moved =>
      crawlerStep_keptUp moved holds keeps
  rintro ⟨gone, running, unlimited, counted⟩
  obtain ⟨inBalance, ends⟩ := kept.resolve_left (by rw [running]; decide)
  rcases ends gone with atLimit | nothing
  · rw [unlimited] at atLimit
    cases atLimit
  · exact counted (inBalance.balanced.gone gone nothing)

end Hanging

/-! ### The sample crawl -/

/-- Two workers: the first downloads the home page, pushes its link and counts it. -/
theorem tasks_conserved_sample : ∃ started,
    sampleStart CrawlerDb.sample "https://a.example/" = some started ∧
      ∃ crawler : Crawler SampleUrl 2,
        Transition.run (crawlerStep sampleCrates none)
          ((samplePush ++ [Input.proceed, .proceed]).map (.worker 0)) (Crawler.begin 0 started) =
            some crawler ∧
        crawler.Balanced := by
  obtain ⟨started, starts, crawler, ran⟩ : ∃ started,
      sampleStart CrawlerDb.sample "https://a.example/" = some started ∧
        ∃ crawler : Crawler SampleUrl 2, Transition.runWith (crawlerStep sampleCrates none)
          (fun crawler action => onlyWorkersPush crawler action = true)
          ((samplePush ++ [Input.proceed, .proceed]).map (.worker 0)) (Crawler.begin 0 started) =
            some crawler := ⟨_, rfl, _, rfl⟩
  exact ⟨started, starts, crawler, Transition.run_of_runWith ran,
    tasks_conserved (AllParse.nil sampleCrates) starts (Transition.reachesWith_of_runWith ran)⟩

/-- The only worker cannot reach the queue and is gone; the seed still waits and is counted. -/
theorem hangs_on_failed_pop : ∃ started,
    sampleStart CrawlerDb.sample "https://a.example/" = some started ∧
      ∃ crawler : Crawler SampleUrl 1,
        Transition.Reaches (crawlerStep sampleCrates none) (Crawler.begin 0 started) crawler ∧
        crawler.Hung none := by
  obtain ⟨started, starts, crawler, ran, gone, running, counted⟩ : ∃ started,
      sampleStart CrawlerDb.sample "https://a.example/" = some started ∧
        ∃ crawler : Crawler SampleUrl 1, Transition.run (crawlerStep sampleCrates none)
          [.worker 0 .proceed, .worker 0 (.redis .failed)] (Crawler.begin 0 started) =
            some crawler ∧
          (crawler.workers 0).hasExited = true ∧ crawler.shared.cancelled = false ∧
          crawler.shared.activeTasks ≠ 0 := ⟨_, rfl, _, rfl, rfl, rfl, by decide⟩
  refine ⟨started, starts, crawler, Transition.reaches_of_run ran,
    ⟨fun id => ?_, running, rfl, counted⟩⟩
  rw [Subsingleton.elim id 0]
  exact gone

/-- A worker whose pop fails leaves while another one stays, and the crawl does not hang. -/
theorem never_hung_sample : ∃ started,
    sampleStart CrawlerDb.sample "https://a.example/" = some started ∧
      ∃ crawler : Crawler SampleUrl 2,
        Transition.run (crawlerStep sampleCrates none)
          ([Input.proceed, .redis .failed].map (.worker 1) ++
            (samplePush ++ [Input.proceed, .proceed]).map (.worker 0)) (Crawler.begin 0 started) =
            some crawler ∧
        ¬ crawler.Hung none := by
  obtain ⟨started, starts, crawler, ran⟩ : ∃ started,
      sampleStart CrawlerDb.sample "https://a.example/" = some started ∧
        ∃ crawler : Crawler SampleUrl 2, Transition.runWith (crawlerStep sampleCrates none)
          (fun crawler action => keepsGoing none crawler action = true)
          ([Input.proceed, .redis .failed].map (.worker 1) ++
            (samplePush ++ [Input.proceed, .proceed]).map (.worker 0)) (Crawler.begin 0 started) =
            some crawler := ⟨_, rfl, _, rfl⟩
  exact ⟨started, starts, crawler, Transition.run_of_runWith ran,
    never_hung (by decide) (AllParse.nil sampleCrates) starts
      (Transition.reachesWith_of_runWith ran)⟩

end PoliteCrawler
