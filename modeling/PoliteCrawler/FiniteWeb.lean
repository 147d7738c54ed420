/-
This file proves that the crawl of a finite web ends.

`insert_url` lets a URL through once, as the filter of seen URLs forgets nothing
while the storage service runs. So when the pages and sitemaps offer finitely
many URLs, new work is pushed only finitely often: what is left to push falls in
the lexicographic order of the URLs that are not seen yet and of the pushes that
are under way with their attempts. Calls may fail or lose their replies, URLs
may go back to the queue any number of times, and links may be offered again and
again.
-/

import PoliteCrawler.CrawlEnds
import PoliteCrawler.Draining

namespace PoliteCrawler

open Transition (toLex_lt_of_fst toLex_lt_of_snd)

variable {Url : Type}

/-! ### URLs that are not seen yet -/

section Unseen

variable [DecidableEq Url] {crates : Crates Url}

/-- The filter has no false negatives. -/
def Crates.FilterSound {Url : Type} (crates : Crates Url) : Prop :=
  ∀ seen url, url ∈ seen → crates.bloomContains seen url = true

/-- How many of the URLs are not seen yet. -/
def SeenUrls.unseen (web : Finset Url) (seen : SeenUrls Url) : Nat :=
  (web \ seen.seenUrls.toFinset).card

theorem SeenUrls.unseen_insertUrl_le (web : Finset Url) (seen : SeenUrls Url) (url : Url) :
    (seen.insertUrl crates url).2.unseen web ≤ seen.unseen web := by
  unfold insertUrl
  split
  · exact le_rfl
  · refine Finset.card_le_card (Finset.sdiff_subset_sdiff le_rfl ?_)
    exact fun other member => List.mem_toFinset.mpr
      (List.mem_cons_of_mem _ (List.mem_toFinset.mp member))

/-- A URL of the web that is let through is seen from then on. -/
theorem SeenUrls.unseen_insertUrl_lt (sound : crates.FilterSound) {web : Finset Url}
    {seen : SeenUrls Url} {url : Url} (member : url ∈ web)
    (new : (seen.insertUrl crates url).1 = false) :
    (seen.insertUrl crates url).2.unseen web < seen.unseen web := by
  unfold insertUrl at new ⊢
  split at new
  · cases new
  · rename_i missing
    rw [if_neg missing]
    have unseen : url ∈ web \ seen.seenUrls.toFinset :=
      Finset.mem_sdiff.mpr ⟨member, fun seen =>
        missing (sound _ _ (List.mem_toFinset.mp seen))⟩
    refine Finset.card_lt_card ?_
    rw [List.toFinset_cons, Finset.sdiff_insert]
    exact Finset.erase_ssubset unseen

end Unseen

/-! ### What is left to push -/

/-- The attempts left for what a worker is to push. -/
def Worker.pending : Worker Url → Nat
  | .working _ _ (.inserting _ filtered) => if filtered = [] then 0 else pushAttempts
  | .working _ _ (.pushing attempt _) => pushAttempts + 1 - attempt
  | _ => 0

/-- The attempts left for what the consumer is to push. -/
def Consumer.pending : Consumer → Nat
  | .pushing _ _ attempt _ _ => pushAttempts + 1 - attempt
  | _ => 0

/-- The URLs that are not seen yet, and the attempts left for what is to be pushed. -/
def Crawler.supply {n : Nat} [DecidableEq Url] (web : Finset Url) (crawler : Crawler Url n) :
    ℕ ×ₗ ℕ :=
  toLex (crawler.shared.service.storage.seenUrls.unseen web,
    (∑ id, (crawler.workers id).pending) + crawler.shared.service.consumer.pending)

/-- The links and sitemaps that are offered are URLs of the web, and the storage service is not
started anew. -/
def Crawler.offersWithin {n : Nat} [DecidableEq Url] (crates : Crates Url) (web : Finset Url)
    (crawler : Crawler Url n) : CrawlerAction Url n → Bool
  | .worker id _ =>
    match crawler.workers id with
    | .working _ _ (.inserting (link :: _) _) => link ∈ web
    | _ => true
  | .service .offer =>
    match crawler.shared.service.consumer with
    | .offering _ (sitemap :: _) _ => (urlsOf crates [sitemap]).all (· ∈ web)
    | _ => true
  | .service (.start _) => false
  | _ => true

/-- A step that sees a new URL of the web, or raises nothing and pays for what it pushes. -/
def Supplies [DecidableEq Url] (web : Finset Url) (seen after : SeenUrls Url)
    (pending left : Nat) (entered : List String) : Prop :=
  after.unseen web < seen.unseen web ∨
    after.unseen web ≤ seen.unseen web ∧ left ≤ pending ∧ (entered ≠ [] → left < pending)

section Steps

variable [DecidableEq Url] {crates : Crates Url} {web : Finset Url} {shared next : Shared Url}
  {worker after : Worker Url} {input : Input Url}

theorem Supplies.same {seen : SeenUrls Url} {pending left : Nat} {entered : List String}
    (less : left ≤ pending) (pays : entered ≠ [] → left < pending) :
    Supplies web seen seen pending left entered :=
  Or.inr ⟨le_rfl, less, pays⟩

/-- What others are to push stays beside. -/
theorem Supplies.beside {seen after : SeenUrls Url} {pending left before behind : Nat}
    {entered : List String} (supplies : Supplies web seen after pending left entered) (others : Nat)
    (first : before = others + pending) (last : behind = others + left) :
    Supplies web seen after before behind entered := by
  subst first last
  refine supplies.imp_right fun kept => ⟨kept.1, Nat.add_le_add_left kept.2.1 _, fun pushed => ?_⟩
  exact Nat.add_lt_add_left (kept.2.2 pushed) others

theorem Supplies.toLex {seen after : SeenUrls Url} {pending left : Nat} {entered : List String}
    (supplies : Supplies web seen after pending left entered) :
    toLex (after.unseen web, left) ≤ toLex (seen.unseen web, pending) ∧
      (entered ≠ [] → toLex (after.unseen web, left) < toLex (seen.unseen web, pending)) := by
  rcases supplies with less | ⟨noMore, kept, pays⟩
  · exact ⟨(toLex_lt_of_fst less).le, fun _ => toLex_lt_of_fst less⟩
  · refine ⟨Prod.Lex.toLex_mono ⟨noMore, kept⟩, fun pushed => ?_⟩
    exact Prod.Lex.toLex_lt_toLex.mpr (noMore.lt_or_eq.imp_right fun same => ⟨same, pays pushed⟩)

/-- An `insert_url` of a URL of the web supplies it once. -/
theorem Supplies.insertUrl (sound : crates.FilterSound) {url : Url} (member : url ∈ web)
    (seen : SeenUrls Url) {pending left : Nat}
    (kept : (seen.insertUrl crates url).1 = true → left ≤ pending) :
    Supplies web seen (seen.insertUrl crates url).2 pending left [] := by
  cases new : (seen.insertUrl crates url).1 with
  | true => exact Or.inr ⟨seen.unseen_insertUrl_le web url, kept new, fun pushed => absurd rfl pushed⟩
  | false => exact Or.inl (SeenUrls.unseen_insertUrl_lt sound member new)

/-- A worker that notes a link of the web keeps it only when it is new. -/
theorem insertTask_supplies (sound : crates.FilterSound) {url link : Url} {ticket : Nat}
    {rest : List Url} {filtered : List String} (member : link ∈ web)
    (moved : insertTask crates input url ticket (link :: rest) filtered shared =
      some (next, after)) :
    Supplies web shared.service.storage.seenUrls next.service.storage.seenUrls
      (Worker.working url ticket (.inserting (link :: rest) filtered)).pending after.pending [] := by
  obtain ⟨⟨answer, service⟩, called, made⟩ := Option.map_eq_some_iff.mp moved
  obtain ⟨faults, call, rfl, rfl, rfl⟩ := rpc_serveInsert (crates.url.parse_asStr link) called
  obtain ⟨rfl, rfl⟩ := Prod.mk.inj made
  cases call with
  | failed => exact .same le_rfl fun pushed => absurd rfl pushed
  | lost => exact Supplies.insertUrl sound member _ fun _ => le_rfl
  | answered =>
    refine Supplies.insertUrl sound member _ fun seen => ?_
    have answered : (shared.service.storage.insertUrlInSeenUrls crates link).1 = true := seen
    simp only [if_true, answered]
    exact le_rfl

/-- A push pays for itself with an attempt. -/
theorem pushTask_supplies {url : Url} {ticket attempt : Nat} {filtered : List String}
    (within : attempt ≤ pushAttempts)
    (moved : pushTask input url ticket attempt filtered shared = some (next, after)) :
    Supplies web shared.service.storage.seenUrls next.service.storage.seenUrls
      (Worker.working url ticket (.pushing attempt filtered)).pending after.pending
      ((Worker.working url ticket (.pushing attempt filtered)).enters input) := by
  cases input with
  | redis call =>
    obtain ⟨rfl, rfl⟩ := Prod.mk.inj (Option.some.inj moved)
    have less : Worker.pending (if call = .answered then .working url ticket (.adding filtered.length)
        else if attempt = pushAttempts then .dropping true
        else .working url ticket (.pushing (attempt + 1) filtered)) <
          pushAttempts + 1 - attempt := by
      split
      · exact Nat.sub_pos_of_lt (Nat.lt_succ_of_le within)
      · split
        · exact Nat.sub_pos_of_lt (Nat.lt_succ_of_le within)
        · exact Nat.sub_lt_sub_left (Nat.lt_succ_of_le within) (Nat.lt_succ_self attempt)
    show Supplies web _ (pushTasks shared.service filtered call).storage.seenUrls _ _ _
    rw [pushTasks_storage]
    exact .same less.le fun _ => less
  | _ => cases moved

/-- A task that neither notes nor pushes leaves nothing to be pushed. -/
theorem TaskMoved.pending_eq {url : Url} {ticket : Nat} {task : Task Url}
    (moved : TaskMoved crates url ticket shared task input next worker)
    (notes : ∀ links filtered, task ≠ .inserting links filtered)
    (pushes : ∀ attempt filtered, task ≠ .pushing attempt filtered) : worker.pending = 0 := by
  cases moved with
  | linkInserted _ _ | noneFound | someFound _ => exact absurd rfl (notes _ _)
  | pushed | pushFailed _ _ => exact absurd rfl (pushes _ _)
  | domainSaved goesOn | sitemapDelayAsked _ goesOn | delayAsked _ goesOn | pageSaved _ goesOn =>
    rcases goesOn with rfl | ⟨_, rfl⟩ <;> rfl
  | pageFetched _ goesOn => rcases goesOn with rfl | rfl <;> rfl
  | _ => rfl

/-- A worker without a task has nothing to push. -/
theorem WorkerMoved.pending_eq (moved : WorkerMoved crates shared worker input next after)
    (outside : worker.atTask = false) :
    after.pending = 0 ∧ worker.enters input = [] ∧
      next.service.storage = shared.service.storage := by
  cases moved with
  | looped goesOn => rcases goesOn with rfl | rfl <;> exact ⟨rfl, rfl, rfl⟩
  | released owed =>
    rcases owed with ⟨rfl, rfl⟩ | ⟨rfl, rfl⟩ | ⟨_, rfl, rfl | rfl⟩ <;> exact ⟨rfl, rfl, rfl⟩
  | requeued | requeueFailed _ => exact ⟨rfl, rfl, pushTasks_storage _ _ _⟩
  | task _ => cases outside
  | _ => exact ⟨rfl, rfl, rfl⟩

theorem taskStep_supplies (sound : crates.FilterSound) {url : Url} {ticket : Nat} {task : Task Url}
    (within : (Worker.working url ticket task).WithinAttempts)
    (offers : ∀ link rest filtered, task = .inserting (link :: rest) filtered → link ∈ web)
    (moved : taskStep crates input url ticket shared task = some (next, after)) :
    Supplies web shared.service.storage.seenUrls next.service.storage.seenUrls
      (Worker.working url ticket task).pending after.pending
      ((Worker.working url ticket task).enters input) := by
  cases task with
  | inserting links filtered =>
    cases links with
    | nil =>
      rw [taskStep_seenUrls moved (fun _ _ _ same => by cases same)]
      refine .same ?_ fun pushed => absurd rfl pushed
      cases taskStep_moved moved with
      | noneFound => exact le_rfl
      | someFound found =>
        rw [Worker.pending, Worker.pending, if_neg found]
        exact le_rfl
    | cons link rest => exact insertTask_supplies sound (offers link rest filtered rfl) moved
  | pushing attempt filtered => exact pushTask_supplies within moved
  | _ =>
    rw [taskStep_seenUrls moved (fun _ _ _ same => by cases same),
      (taskStep_moved moved).pending_eq (fun _ _ same => by cases same)
        (fun _ _ same => by cases same)]
    exact .same (Nat.zero_le _) fun pushed => absurd rfl pushed

/-- Every step of a worker supplies no more than there is. -/
theorem workerStep_supplies (sound : crates.FilterSound) (within : worker.WithinAttempts)
    (offers : ∀ url ticket link rest filtered,
      worker = .working url ticket (.inserting (link :: rest) filtered) → link ∈ web)
    (moved : workerStep crates input shared worker = some (next, after)) :
    Supplies web shared.service.storage.seenUrls next.service.storage.seenUrls worker.pending
      after.pending (worker.enters input) := by
  cases worker with
  | working url ticket task =>
    refine taskStep_supplies sound within (fun link rest filtered same => ?_) moved
    exact offers url ticket link rest filtered (same ▸ rfl)
  | _ =>
    obtain ⟨nothing, enters, storage⟩ := (workerStep_moved moved).pending_eq rfl
    rw [nothing, enters, storage]
    exact .same (Nat.zero_le _) fun pushed => absurd rfl pushed

omit [DecidableEq Url] in
theorem Consumer.pending_next (batch : List (StreamEntry × Nat)) :
    (Consumer.next batch).pending = 0 := by
  cases batch <;> rfl

omit [DecidableEq Url] in
/-- What is left of a push is one attempt less, and within bounds. -/
theorem Consumer.retried {id attempt : Nat} {sitemap : String} {sitemaps : List String}
    {batch : List (StreamEntry × Nat)} (within : attempt ≤ pushAttempts) :
    let left : Consumer := if attempt = pushAttempts then .offering id sitemaps batch
      else .pushing id sitemap (attempt + 1) sitemaps batch
    left.WithinAttempts ∧ left.pending < pushAttempts + 1 - attempt := by
  by_cases last : attempt = pushAttempts
  · rw [if_pos last]
    exact ⟨trivial, Nat.sub_pos_of_lt (Nat.lt_succ_of_le within)⟩
  · rw [if_neg last]
    exact ⟨Nat.lt_of_le_of_ne within last,
      Nat.sub_lt_sub_left (Nat.lt_succ_of_le within) (Nat.lt_succ_self attempt)⟩

omit [DecidableEq Url] in
/-- A push of a sitemap pays for itself with an attempt. -/
theorem pushSitemap_pending {service after : StorageService Url} {call : Call}
    (within : service.consumer.WithinAttempts) (moved : service.pushSitemap call = some after) :
    after.consumer.WithinAttempts ∧ after.consumer.pending < service.consumer.pending ∧
      after.storage = service.storage := by
  unfold StorageService.pushSitemap at moved
  split at moved
  · rename_i id sitemap attempt sitemaps batch pushing
    rw [pushing] at within ⊢
    have attempts : attempt ≤ pushAttempts := within
    have retried := @Consumer.retried id attempt sitemap sitemaps batch attempts
    cases call <;> cases moved
    · exact ⟨trivial, Nat.sub_pos_of_lt (Nat.lt_succ_of_le attempts), rfl⟩
    · exact ⟨retried.1, retried.2, rfl⟩
    · exact ⟨retried.1, retried.2, rfl⟩
  · cases moved

omit [DecidableEq Url] in
/-- The other steps of the service leave a push under way as it is, or have none. -/
theorem ServiceMoved.pending_le {service after : StorageService Url} {action : ServiceAction Url}
    (moved : ServiceMoved crates service action after)
    (pushes : ∀ call, action ≠ .pushSitemap call) (offers : action ≠ .offer)
    (within : service.consumer.WithinAttempts) :
    after.consumer.WithinAttempts ∧ after.consumer.pending ≤ service.consumer.pending := by
  cases moved with
  | offered _ _ _ => exact absurd rfl offers
  | pushed _ _ _ | pushFailed _ _ => exact absurd rfl (pushes _)
  | @groupCreated call left _ _ idle =>
    cases left with
    | pushing id sitemap attempt sitemaps batch => cases idle
    | _ => exact ⟨trivial, Nat.zero_le _⟩
  | readAnswered _ | acked _ _ | ackFailed _ =>
    exact ⟨Consumer.withinAttempts_next _, (Consumer.pending_next _).le.trans (Nat.zero_le _)⟩
  | dropped _ _ goesOn =>
    rcases goesOn with rfl | rfl
    · exact ⟨trivial, Nat.zero_le _⟩
    · exact ⟨Consumer.withinAttempts_next _, (Consumer.pending_next _).le.trans (Nat.zero_le _)⟩
  | published _ | readLost _ | readFailed | looked _ => exact ⟨within, le_rfl⟩
  | _ => exact ⟨trivial, Nat.zero_le _⟩

omit [DecidableEq Url] in
/-- The consumer tries a push no more often than the loop allows. -/
theorem serviceStep_withinAttempts {service after : StorageService Url}
    {action : ServiceAction Url} (within : service.consumer.WithinAttempts)
    (moved : serviceStep crates action service = some after) :
    after.consumer.WithinAttempts := by
  cases action with
  | pushSitemap call => exact (pushSitemap_pending within moved).1
  | offer =>
    obtain ⟨_, _, _, _, _, ⟨_, _, rfl⟩ | ⟨url, _, rfl⟩⟩ := offer_eq_some crates moved
    · trivial
    · cases (service.storage.insertUrlInSeenUrls crates url).1 with
      | true => trivial
      | false => exact Nat.le_add_left 1 2
  | _ =>
    exact ((serviceStep_moved crates moved).pending_le (fun _ same => by cases same)
      (fun same => by cases same) within).1

/-- A sitemap of the web is kept only when it is new. -/
theorem offer_supplies (sound : crates.FilterSound) {service after : StorageService Url}
    (offers : ∀ id sitemap sitemaps batch,
      service.consumer = .offering id (sitemap :: sitemaps) batch →
      (urlsOf crates [sitemap]).all (· ∈ web) = true)
    (moved : service.offer crates = some after) :
    Supplies web service.storage.seenUrls after.storage.seenUrls service.consumer.pending
      after.consumer.pending [] := by
  obtain ⟨id, sitemap, sitemaps, batch, offering, ⟨_, _, rfl⟩ | ⟨url, parsed, rfl⟩⟩ :=
    offer_eq_some crates moved
  · exact .same (Nat.zero_le _) fun pushed => absurd rfl pushed
  · have member : url ∈ web := by
      simpa [urlsOf_singleton parsed] using offers id sitemap sitemaps batch offering
    refine Supplies.insertUrl sound member _ fun seen => ?_
    have answered : (service.storage.insertUrlInSeenUrls crates url).1 = true := seen
    simp only [answered, if_true]
    exact Nat.zero_le _

/-- What is seen stays seen until the storage service is started anew. -/
theorem ServiceMoved.unseen_le {service after : StorageService Url} {action : ServiceAction Url}
    (moved : ServiceMoved crates service action after) (stays : ∀ faults, action ≠ .start faults)
    (web : Finset Url) :
    after.storage.seenUrls.unseen web ≤ service.storage.seenUrls.unseen web := by
  have looked : ∀ request, (service.storage.afterLookup crates request).seenUrls.unseen web ≤
      service.storage.seenUrls.unseen web := by
    intro request
    cases request with
    | check url faults =>
      exact (congrArg _ (checkIfUrlAllowed_seenUrls _ _ _)).le
    | delay domain faults =>
      exact (congrArg _ (cachedOrStored_seenUrls _ _ _)).le
    | insertUrl url => exact SeenUrls.unseen_insertUrl_le web _ url
    | evict domain => exact le_rfl
  cases moved with
  | started _ _ => exact absurd rfl (stays _)
  | processed _ _ | dropped _ _ _ =>
    exact (congrArg _ (processStreamEntry_seenUrls _ _ _)).le
  | offered _ noted _ =>
    rcases noted with rfl | ⟨url, rfl⟩
    · exact le_rfl
    · exact looked (.insertUrl url)
  | looked request => exact looked request
  | _ => exact le_rfl

/-- Every step of a storage service that is not started anew supplies no more than there is. -/
theorem serviceStep_supplies (sound : crates.FilterSound) {service after : StorageService Url}
    {action : ServiceAction Url} (within : service.consumer.WithinAttempts)
    (offers : ∀ id sitemap sitemaps batch, action = .offer →
      service.consumer = .offering id (sitemap :: sitemaps) batch →
      (urlsOf crates [sitemap]).all (· ∈ web) = true)
    (stays : ∀ faults, action ≠ .start faults)
    (moved : serviceStep crates action service = some after) :
    Supplies web service.storage.seenUrls after.storage.seenUrls service.consumer.pending
      after.consumer.pending (service.consumer.enters action) := by
  cases action with
  | pushSitemap call =>
    obtain ⟨_, less, storage⟩ := pushSitemap_pending within moved
    rw [storage]
    exact .same less.le fun _ => less
  | offer =>
    rw [Consumer.enters_eq_nil (fun _ same => by cases same)]
    exact offer_supplies sound (fun id sitemap sitemaps batch =>
      offers id sitemap sitemaps batch rfl) moved
  | _ =>
    have others := serviceStep_moved crates moved
    refine Or.inr ⟨others.unseen_le stays web, (others.pending_le (fun _ same => by cases same)
      (fun same => by cases same) within).2, fun pushed => absurd ?_ pushed⟩
    exact Consumer.enters_eq_nil (fun _ same => by cases same)

end Steps

/-! ### The crawl -/

section Crawl

variable [DecidableEq Url] {crates : Crates Url} {web : Finset Url} {n : Nat}
  {limit : Option (BitVec 64)} {crawler next : Crawler Url n} {action : CrawlerAction Url n}

/-- Pushes are tried within bounds. -/
structure Crawler.WithinAttempts (crawler : Crawler Url n) : Prop where
  workers : ∀ id, (crawler.workers id).WithinAttempts
  consumer : crawler.shared.service.consumer.WithinAttempts

theorem Crawler.WithinAttempts.step (within : crawler.WithinAttempts)
    (moved : crawlerStep crates limit action crawler = some next) : next.WithinAttempts := by
  refine ⟨crawlerStep_withinAttempts within.workers moved, ?_⟩
  rcases crawlerStep_stream moved with ⟨served, rfl, stepped⟩ | ⟨_, consumer, _⟩
  · exact serviceStep_withinAttempts within.consumer stepped
  · rw [consumer]
    exact within.consumer

/-- No step raises the supply, and a push of new work lowers it. -/
theorem crawlerStep_supply (sound : crates.FilterSound) (within : crawler.WithinAttempts)
    (offers : crawler.offersWithin crates web action = true)
    (moved : crawlerStep crates limit action crawler = some next) :
    next.supply web ≤ crawler.supply web ∧
      (enteredBy crawler action ≠ [] → next.supply web < crawler.supply web) := by
  cases action with
  | worker id input =>
    obtain ⟨⟨shared, worker⟩, stepped, rfl⟩ := Option.map_eq_some_iff.mp moved
    have supplies := workerStep_supplies sound (within.workers id) (fun _ _ link rest _ same => by
      simpa [Crawler.offersWithin, same] using offers) stepped
    refine (supplies.beside ((∑ other ∈ Finset.univ.erase id, (crawler.workers other).pending) +
      crawler.shared.service.consumer.pending) ?_ ?_).toLex
    · rw [← Finset.sum_erase_add Finset.univ _ (Finset.mem_univ id)]
      exact Nat.add_right_comm _ _ _
    · show (∑ other, (Function.update crawler.workers id worker other).pending) +
        shared.service.consumer.pending = _
      rw [Transition.sum_update, (workerStep_moved stepped).consumer_eq]
      exact Nat.add_right_comm _ _ _
  | service action =>
    obtain ⟨service, stepped, rfl⟩ := Option.map_eq_some_iff.mp moved
    have supplies := serviceStep_supplies sound within.consumer
      (fun id sitemap sitemaps batch offer offering => by
        simpa [Crawler.offersWithin, offer, offering] using offers)
      (fun faults start => by simp [Crawler.offersWithin, start] at offers) stepped
    exact (supplies.beside (∑ id, (crawler.workers id).pending) rfl rfl).toLex
  | _ =>
    cases crawlerStep_moved crates moved
    exact ⟨le_rfl, fun pushed => absurd rfl pushed⟩

/-- New work is pushed only finitely often. -/
def supplyRank (sound : crates.FilterSound) (limit : Option (BitVec 64)) (web : Finset Url) :
    Transition.Ranking (crawlerStep (n := n) crates limit)
      (fun crawler action => crawler.offersWithin crates web action = true)
      Crawler.WithinAttempts (fun crawler action => enteredBy crawler action ≠ []) (ℕ ×ₗ ℕ) where
  rank := Crawler.supply web
  keeps _ _ _ within _ moved := within.step moved
  bounds _ _ _ within offers moved := (crawlerStep_supply sound within offers moved).1
  lowers _ _ _ within offers entered moved :=
    (crawlerStep_supply sound within offers moved).2 entered

/-- The crawl of a finite web ends: when finitely many URLs are offered while the storage service
runs, every worker that goes on as time passes leaves its loop. -/
theorem finite_crawl_ends (sound : crates.FilterSound)
    {path : Transition.PathWith (crawlerStep (n := n) crates limit)
      (fun crawler action => crawler.offersWithin crates web action = true)}
    {clock : Instant} {started : StorageService Url × Nat}
    (begins : path.state 0 = Crawler.begin clock started)
    (attempts : started.1.consumer.WithinAttempts)
    (turns : ∀ id, path.Recurs fun crawler action =>
      crawler.workers id = .exited ∨ action.IsOf id)
    (passes : ∀ instant, ∃ time, instant ≤ (path.state time).shared.clock) :
    path.Settles fun crawler => ∀ id, crawler.workers id = .exited := by
  have within : (path.state 0).WithinAttempts := by
    rw [begins]
    exact ⟨fun _ => trivial, attempts⟩
  exact exits_of_ceases begins turns passes ((supplyRank sound limit web).ceases within)

/-- The crawl when time has passed and nothing else has happened. -/
def Crawler.passed (crawler : Crawler Url n) (elapsed : Duration) : Crawler Url n :=
  { crawler with shared := { crawler.shared with clock := crawler.shared.clock + elapsed } }

/-- Time goes on, and nothing else happens. -/
def tickingPath (crates : Crates Url) (limit : Option (BitVec 64)) (web : Finset Url)
    (crawler : Crawler Url n) : Transition.PathWith (crawlerStep (n := n) crates limit)
      (fun crawler action => crawler.offersWithin crates web action = true) where
  state time := crawler.passed time
  action _ := .tick 1
  allowed _ := rfl
  moves time := by
    rw [crawlerStep, Crawler.passed, Crawler.passed, Nat.cast_succ, add_assoc]
    rfl

end Crawl

/-! ### The sample crawl -/

/-- The worker pushes the link of the home page, leaves its loop after the page behind it, and time
goes on. -/
theorem finite_crawl_ends_sample : ∃ started,
    sampleStart (CrawlerDb.sample.upsertDomain ⟨"b.example", none, 0⟩) "https://a.example/" =
      some started ∧
      ∃ path : Transition.PathWith (crawlerStep (n := 1) sampleCrates none)
          (fun crawler action => crawler.offersWithin sampleCrates {.other} action = true),
        path.state 0 = Crawler.begin 0 started ∧
          (∃ time, (path.state time).shared.service.queue.pushed =
            ["https://a.example/", "https://b.example/"]) ∧
          path.Settles fun crawler => ∀ id, crawler.workers id = .exited := by
  obtain ⟨started, starts, reading, crawler, ran, gone, pushed⟩ : ∃ started,
      sampleStart (CrawlerDb.sample.upsertDomain ⟨"b.example", none, 0⟩) "https://a.example/" =
        some started ∧ started.1.consumer = .reading ∧
        ∃ crawler : Crawler SampleUrl 1, Transition.runWith (crawlerStep sampleCrates none)
          (fun crawler action => crawler.offersWithin sampleCrates {.other} action = true)
          sampleSearch (Crawler.begin 0 started) = some crawler ∧
          crawler.workers (Fin.last 0) = .exited ∧
          crawler.shared.service.queue.pushed = ["https://a.example/", "https://b.example/"] :=
    ⟨_, rfl, rfl, _, rfl, rfl, rfl⟩
  have sound : sampleCrates.FilterSound := fun seen url =>
    (filterExact_sample seen url).mpr
  obtain ⟨path, begins, _, ends⟩ := Transition.PathWith.exists_append
    (tickingPath sampleCrates none {.other} crawler) (Transition.permits_of_runWith ran) (by
      rw [Transition.run_of_runWith ran]
      simp [tickingPath, Crawler.passed])
  have left : ∀ time, path.state (sampleSearch.length + time) = crawler.passed time :=
    fun time => (ends time).1
  refine ⟨started, starts, path, begins, ⟨sampleSearch.length + 0, ?_⟩,
    finite_crawl_ends sound begins ?_ (fun id time => ?_) fun instant => ?_⟩
  · rw [left]
    exact pushed
  · rw [reading]
    trivial
  · refine ⟨sampleSearch.length + time, Nat.le_add_left _ _, Or.inl ?_⟩
    rw [left]
    exact (congrArg crawler.workers (Subsingleton.elim id (Fin.last 0))).trans gone
  · refine ⟨sampleSearch.length + (instant - crawler.shared.clock).toNat, ?_⟩
    rw [left]
    show instant ≤ crawler.shared.clock + ((instant - crawler.shared.clock).toNat : Int)
    exact sub_le_iff_le_add'.mp (Int.self_le_toNat _)

end PoliteCrawler
