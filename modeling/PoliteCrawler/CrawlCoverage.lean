/-
This file proves that a crawl misses nothing it is shown.

The workers search a graph: a page shows links, a sitemap shows entries, and what
is new of them is pushed for other workers to take. The graph is never there as a
whole. It is read in pieces, each link is in one hand after the other, and what
one worker has marked as seen another takes for granted.

In a run that gives up nothing, a link that was shown is still to be inserted, or
to be pushed, or it was pushed. A URL that was pushed waits, or a worker pursues
it, or it is settled. So once the workers have left and the queue is empty, every
URL that a chain of links leads to is settled: it was downloaded, or it is closed
to the crawl. The URL that finds its domain unknown is spent on the robots.txt of
the domain, and is closed in this sense.
-/

import PoliteCrawler.CanonicalFrontier
import PoliteCrawler.Frontier

namespace PoliteCrawler

variable {Url : Type} {n : Nat}

/-! ### What is shown -/

section Graph

variable [DecidableEq Url] (crates : Crates Url)

/-- The links of the page that is downloaded for the URL. -/
def pageLinks (web : Web Url) (url : Url) : List Url :=
  match getPage crates web url with
  | .ok data => outboundUrls crates data.url (crates.parseDocument data.content)
  | .error _ => []

/-- The entries of the sitemap that is downloaded for the URL. -/
def sitemapLinks (web : Web Url) (url : Url) : List Url :=
  match SitemapsParser.parse crates web [crates.url.asStr url] with
  | .ok links => links
  | .error _ => []

/-- A download shows at least the links that the graph has for the URL. -/
def Worker.shows (graph : Url → List Url) : Worker Url → Input Url → Bool
  | .working url _ (.fetchingPage _), .web web _ =>
    (graph url).all (· ∈ pageLinks crates web url)
  | .working url _ .fetchingSitemap, .web web _ =>
    (graph url).all (· ∈ sitemapLinks crates web url)
  | _, _ => true

/-- The links that the worker has read and still has to ask for. -/
def Worker.toInsert : Worker Url → List Url
  | .working _ _ (.savingPage page _) => page.outboundLinks
  | .working _ _ (.countingPage links) | .working _ _ (.inserting links _) => links
  | _ => []

/-- The URL that the step checks while its domain is unknown. -/
def Worker.spends (service : StorageService Url) : Worker Url → Input Url → List Url
  | .working url _ .checking, .rpc faults .answered =>
    match (service.storage.checkIfUrlAllowed crates faults url).1 with
    | .ok .unknownDomain => [url]
    | _ => []
  | _, _ => []

/-- No Redis or gRPC call of the step fails. A download may. -/
def Worker.answered (service : StorageService Url) (worker : Worker Url) : Input Url → Bool
  | .web _ _ => true
  | input => callSucceeds crates service worker input

/-- The step gives up no link, and shows those of the graph. -/
def Crawler.givesUpNone (graph : Url → List Url) (crawler : Crawler Url n) :
    CrawlerAction Url n → Bool
  | .worker id input =>
    (crawler.workers id).answered crates crawler.shared.service input &&
      (crawler.workers id).shows crates graph input
  | .service (.pushSitemap call) => call ≠ .failed
  | .service action => staysUp action
  | _ => true

/-- A crawl, and the URLs it has spent on the robots.txt of their domains. -/
structure Exploration (Url : Type) (n : Nat) where
  crawler : Crawler Url n
  spent : List Url

def spentBy (crawler : Crawler Url n) : CrawlerAction Url n → List Url
  | .worker id input => (crawler.workers id).spends crates crawler.shared.service input
  | _ => []

def explorationStep (limit : Option (BitVec 64)) (action : CrawlerAction Url n)
    (exploration : Exploration Url n) : Option (Exploration Url n) :=
  (crawlerStep crates limit action exploration.crawler).map fun crawler => {
    crawler
    spent := exploration.spent ++ spentBy crates exploration.crawler action }

/-- The URL is not for the crawl to download: it was answered as disallowed, or has no domain, or
was spent on the robots.txt of its domain. -/
def Exploration.Closed (exploration : Exploration Url n) (url : Url) : Prop :=
  url ∈ exploration.crawler.shared.journal.disallowed ∨ crates.url.domain url = none ∨
    url ∈ exploration.spent

def Exploration.Settled (exploration : Exploration Url n) (url : Url) : Prop :=
  url ∈ exploration.crawler.shared.journal.downloaded ∨ exploration.Closed crates url

/-- The crawl is over: the workers have left their loops, no URL waits, and the consumer has no
sitemap in hand. -/
structure Crawler.Over (crawler : Crawler Url n) : Prop where
  workers : ∀ id, crawler.workers id = .exited
  queue : crawler.shared.service.queue.waiting = []
  consumer : crawler.shared.service.consumer.filtered = []

/-! ### Where a link is -/

/-- The URL was pushed, or is in a hand to be pushed. -/
def Crawler.Secures (crawler : Crawler Url n) (url : Url) : Prop :=
  crawler.shared.service.queue.WasPushed crates url ∨
    (∃ id, crates.url.asStr url ∈ (crawler.workers id).filtered) ∨
    crates.url.asStr url ∈ crawler.shared.service.consumer.filtered

/-- Every URL that was pushed, every URL that is seen and every link that was shown is
somewhere. -/
structure Exploration.Covers (graph : Url → List Url) (exploration : Exploration Url n) :
    Prop where
  pushed : ∀ url, exploration.crawler.shared.service.queue.WasPushed crates url →
    exploration.crawler.shared.service.queue.Queued crates url ∨
      (∃ id, (exploration.crawler.workers id).Pursues url) ∨ exploration.Settled crates url
  seen : ∀ url ∈ exploration.crawler.shared.service.storage.seenUrls.seenUrls,
    exploration.crawler.Secures crates url
  shown : ∀ page ∈ exploration.crawler.shared.journal.downloaded, ∀ link ∈ graph page,
    exploration.crawler.Secures crates link ∨
      ∃ id, link ∈ (exploration.crawler.workers id).toInsert

end Graph

/-! ### The links of a worker -/

section Sorting

variable [DecidableEq Url] {crates : Crates Url}

theorem mem_destutter'_of_mem {first link : Url} {links : List Url}
    (member : link ∈ first :: links) : link ∈ links.destutter' (· ≠ ·) first := by
  induction links generalizing first with
  | nil => exact member
  | cons second rest inductionHypothesis =>
    rw [List.destutter'_cons]
    split
    · rcases List.mem_cons.mp member with rfl | later
      · exact List.mem_cons_self
      · exact List.mem_cons_of_mem _ (inductionHypothesis later)
    · rename_i same
      obtain rfl : first = second := not_not.mp same
      rcases List.mem_cons.mp member with rfl | later
      · exact inductionHypothesis List.mem_cons_self
      · exact inductionHypothesis later

/-- Sorting and `dedup` keep every link. -/
theorem mem_sortedLinks {links : List Url} {link : Url} (member : link ∈ links) :
    link ∈ sortedLinks crates links := by
  have sorted : link ∈ links.insertionSort fun first second =>
      crates.url.asStr first ≤ crates.url.asStr second := (List.mem_insertionSort _).mpr member
  unfold sortedLinks
  cases order : links.insertionSort fun first second =>
      crates.url.asStr first ≤ crates.url.asStr second with
  | nil =>
    rw [order] at sorted
    cases sorted
  | cons first rest =>
    rw [order] at sorted
    exact mem_destutter'_of_mem sorted

end Sorting

section Steps

variable [DecidableEq Url] {crates : Crates Url} {graph : Url → List Url}
  {shared next : Shared Url} {worker after : Worker Url} {input : Input Url}

/-- What a step of a worker does with the links it is shown, has to ask for and has to push. -/
structure KeepsLinks (crates : Crates Url) (graph : Url → List Url) (shared : Shared Url)
    (worker : Worker Url) (next : Shared Url) (after : Worker Url) : Prop where
  seen : ∀ url ∈ next.service.storage.seenUrls.seenUrls,
    url ∈ shared.service.storage.seenUrls.seenUrls ∨ crates.url.asStr url ∈ after.filtered
  filtered : ∀ url, crates.url.asStr url ∈ worker.filtered →
    crates.url.asStr url ∈ after.filtered ∨ next.service.queue.WasPushed crates url
  toInsert : ∀ link ∈ worker.toInsert, link ∈ after.toInsert ∨
    crates.url.asStr link ∈ after.filtered ∨
      link ∈ shared.service.storage.seenUrls.seenUrls
  shown : ∀ page ∈ next.journal.downloaded,
    page ∈ shared.journal.downloaded ∨ ∀ link ∈ graph page, link ∈ after.toInsert

omit [DecidableEq Url] in
/-- A step that is shown nothing and marks nothing. -/
theorem KeepsLinks.passed
    (seen : next.service.storage.seenUrls = shared.service.storage.seenUrls)
    (downloaded : next.journal.downloaded = shared.journal.downloaded)
    (filtered : ∀ url, crates.url.asStr url ∈ worker.filtered →
      crates.url.asStr url ∈ after.filtered ∨ next.service.queue.WasPushed crates url)
    (toInsert : ∀ link ∈ worker.toInsert, link ∈ after.toInsert) :
    KeepsLinks crates graph shared worker next after where
  seen _ member := Or.inl (seen ▸ member)
  filtered := filtered
  toInsert link member := Or.inl (toInsert link member)
  shown _ member := Or.inl (downloaded ▸ member)

omit [DecidableEq Url] in
/-- A step without links. -/
theorem KeepsLinks.without
    (seen : next.service.storage.seenUrls = shared.service.storage.seenUrls)
    (downloaded : next.journal.downloaded = shared.journal.downloaded)
    (filtered : worker.filtered = []) (toInsert : worker.toInsert = []) :
    KeepsLinks crates graph shared worker next after :=
  .passed seen downloaded (fun url member => by rw [filtered] at member; cases member)
    fun link member => by rw [toInsert] at member; cases member

omit [DecidableEq Url] in
/-- A download that shows the links of the graph. -/
theorem KeepsLinks.fetched {url : Url} {ticket : Nat} {task : Task Url}
    (seen : next.service.storage.seenUrls = shared.service.storage.seenUrls)
    (downloaded : next.journal.downloaded = url :: shared.journal.downloaded)
    (fetches : (Worker.working url ticket task).filtered = [] ∧
      (Worker.working url ticket task).toInsert = [])
    (reads : ∀ link ∈ graph url, link ∈ after.toInsert) :
    KeepsLinks crates graph shared (.working url ticket task) next after where
  seen _ member := Or.inl (seen ▸ member)
  filtered url member := by
    rw [fetches.1] at member
    cases member
  toInsert link member := by
    rw [fetches.2] at member
    cases member
  shown page member := by
    rw [downloaded] at member
    rcases List.mem_cons.mp member with rfl | before
    · exact Or.inr reads
    · exact Or.inl before

theorem fetchSitemapTask_keepsLinks {url : Url} {ticket : Nat}
    (shows : (Worker.working url ticket .fetchingSitemap).shows crates graph input = true)
    (moved : fetchSitemapTask crates input url ticket shared = some (next, after)) :
    KeepsLinks crates graph shared (.working url ticket .fetchingSitemap) next after := by
  cases input with
  | web web keywordsFile =>
    have shown : ∀ link ∈ graph url, link ∈ sitemapLinks crates web url :=
      fun link listed => of_decide_eq_true (List.all_eq_true.mp shows link listed)
    simp only [fetchSitemapTask, Option.some.injEq] at moved
    unfold sitemapLinks at shown
    cases got : SitemapsParser.parse crates web [crates.url.asStr url] with
    | ok links =>
      rw [got] at moved shown
      cases moved
      exact .fetched rfl rfl ⟨rfl, rfl⟩ fun link listed => mem_sortedLinks (shown link listed)
    | error abort =>
      rw [got] at moved shown
      cases abort <;> cases moved <;>
        exact .fetched rfl rfl ⟨rfl, rfl⟩ fun link listed => by cases shown link listed
  | _ => cases moved

theorem fetchPageTask_keepsLinks {url : Url} {ticket : Nat} {decided : CrawlerStorage Url}
    (shows : (Worker.working url ticket (.fetchingPage decided)).shows crates graph input = true)
    (moved : fetchPageTask crates input url ticket decided shared = some (next, after)) :
    KeepsLinks crates graph shared (.working url ticket (.fetchingPage decided)) next after := by
  cases input with
  | web web keywordsFile =>
    have shown : ∀ link ∈ graph url, link ∈ pageLinks crates web url :=
      fun link listed => of_decide_eq_true (List.all_eq_true.mp shows link listed)
    simp only [fetchPageTask, Option.some.injEq] at moved
    unfold pageLinks at shown
    cases got : getPage crates web url with
    | ok data =>
      rw [got] at moved shown
      have reads : ∀ link ∈ graph url,
          link ∈ (ParsedPage.parse crates keywordsFile data).2.outboundLinks := by
        rw [parse_outboundLinks]
        exact shown
      obtain ⟨rfl, rfl⟩ := Prod.mk.inj moved
      refine .fetched rfl rfl ⟨rfl, rfl⟩ ?_
      dsimp only
      split
      · exact reads
      · exact fun link listed => mem_sortedLinks (reads link listed)
    | error abort =>
      rw [got] at moved shown
      cases abort <;> cases moved <;>
        exact .fetched rfl rfl ⟨rfl, rfl⟩ fun link listed => by cases shown link listed
  | _ => cases moved

omit [DecidableEq Url] in
/-- A link that is asked for was seen, or is to be pushed. -/
theorem insertTask_keepsLinks (exact : crates.FilterExact) {url link : Url} {ticket : Nat}
    {rest : List Url} {filtered : List String}
    (answered : (Worker.working url ticket (.inserting (link :: rest) filtered)).answered crates
      shared.service input = true)
    (moved : insertTask crates input url ticket (link :: rest) filtered shared =
      some (next, after)) :
    KeepsLinks crates graph shared (.working url ticket (.inserting (link :: rest) filtered)) next
      after := by
  obtain ⟨⟨answer, service⟩, called, made⟩ := Option.map_eq_some_iff.mp moved
  obtain ⟨faults, call, rfl, rfl, rfl⟩ := rpc_serveInsert (crates.url.parse_asStr link) called
  obtain ⟨rfl, rfl⟩ := Prod.mk.inj made
  obtain rfl : call = .answered := of_decide_eq_true (Bool.and_eq_true_iff.mp answered).1
  have noted : ∀ other, other ∈
      (shared.service.storage.seenUrls.insertUrl crates link).2.seenUrls ↔
        other = link ∨ other ∈ shared.service.storage.seenUrls.seenUrls :=
    fun other => SeenUrls.mem_insertUrl exact _
  cases old : (shared.service.storage.insertUrlInSeenUrls crates link).1 with
  | true =>
    have seen : link ∈ shared.service.storage.seenUrls.seenUrls :=
      (SeenUrls.insertUrl_fst exact _).mp old
    simp only [if_true]
    refine ⟨fun other member => Or.inl ?_, fun other member => Or.inl member,
      fun other member => ?_, fun page member => Or.inl member⟩
    · exact ((noted other).mp member).elim (fun same => same ▸ seen) id
    · rcases List.mem_cons.mp member with rfl | later
      · exact Or.inr (Or.inr seen)
      · exact Or.inl later
  | false =>
    simp only [if_true]
    have kept : crates.url.asStr link ∈ filtered ++ [crates.url.asStr link] :=
      List.mem_append_right _ List.mem_cons_self
    refine ⟨fun other member => ?_, fun other member => Or.inl (List.mem_append_left _ member),
      fun other member => ?_, fun page member => Or.inl member⟩
    · rcases (noted other).mp member with rfl | before
      · exact Or.inr kept
      · exact Or.inl before
    · rcases List.mem_cons.mp member with rfl | later
      · exact Or.inr (Or.inl kept)
      · exact Or.inl later

/-- A task keeps what it has to ask for and to push, and reads the links of the graph. -/
theorem taskStep_keepsLinks (exact : crates.FilterExact) {url : Url} {ticket : Nat}
    {task : Task Url}
    (answered : (Worker.working url ticket task).answered crates shared.service input = true)
    (shows : (Worker.working url ticket task).shows crates graph input = true)
    (moved : taskStep crates input url ticket shared task = some (next, after)) :
    KeepsLinks crates graph shared (.working url ticket task) next after := by
  by_cases notes : ∃ link rest filtered, task = .inserting (link :: rest) filtered
  · obtain ⟨link, rest, filtered, rfl⟩ := notes
    exact insertTask_keepsLinks exact answered moved
  have seen : next.service.storage.seenUrls = shared.service.storage.seenUrls :=
    taskStep_seenUrls moved fun link rest filtered same => notes ⟨link, rest, filtered, same⟩
  cases taskStep_moved moved with
  | linkInserted _ _ => exact absurd ⟨_, _, _, rfl⟩ notes
  | sitemapFetched _ | sitemapFailed => exact fetchSitemapTask_keepsLinks shows moved
  | pageFetched _ _ | pageFailed => exact fetchPageTask_keepsLinks shows moved
  | pageSaved _ goesOn =>
    refine .passed seen rfl (fun url member => by cases member) ?_
    rcases goesOn with rfl | ⟨lost, _⟩
    · exact fun link member => member
    · exact absurd (of_decide_eq_true answered) lost
  | pageUnsaved => cases answered
  | pageCounted =>
    exact .passed seen rfl (fun url member => by cases member) fun link => mem_sortedLinks
  | noneFound => exact .without seen rfl rfl rfl
  | someFound _ =>
    exact .passed seen rfl (fun url member => Or.inl member) fun link member => by cases member
  | pushed =>
    refine .passed seen rfl (fun url member => Or.inr ⟨_, ?_, crates.url.parse_asStr url⟩)
      fun link member => by cases member
    exact List.mem_append_right _ member
  | pushFailed failed _ => exact absurd (of_decide_eq_true answered) failed
  | _ => exact .without seen rfl rfl rfl

/-- A step of a worker loses none of its links. -/
theorem workerStep_keepsLinks (exact : crates.FilterExact)
    (answered : worker.answered crates shared.service input = true)
    (shows : worker.shows crates graph input = true)
    (moved : workerStep crates input shared worker = some (next, after)) :
    KeepsLinks crates graph shared worker next after := by
  cases workerStep_moved moved with
  | task _ => exact taskStep_keepsLinks exact answered shows moved
  | requeued | requeueFailed _ =>
    exact .without (congrArg _ (pushTasks_storage _ _ _)) rfl rfl rfl
  | released owed =>
    rcases owed with ⟨rfl, _⟩ | ⟨rfl, _⟩ | ⟨_, rfl, _⟩ <;> exact .without rfl rfl rfl rfl
  | _ => exact .without rfl rfl rfl rfl

/-! ### The URL of a worker -/

omit [DecidableEq Url] in
/-- A worker without a task downloads nothing. -/
theorem callSucceeds_of_answered
    (answered : worker.answered crates shared.service input = true)
    (outside : ∀ url ticket task, worker ≠ .working url ticket task) :
    callSucceeds crates shared.service worker input = true := by
  cases input with
  | web web keywordsFile =>
    cases worker with
    | working url ticket task => exact absurd rfl (outside url ticket task)
    | _ => rfl
  | _ => exact answered

/-- The URL is at an end, or the step spends it on the robots.txt of its domain. -/
def EndsAt (crates : Crates Url) (shared next : Shared Url) (worker : Worker Url)
    (input : Input Url) (url : Url) : Prop :=
  next.journal.Ended crates url ∨ url ∈ worker.spends crates shared.service input

/-- A task that seeks an end goes on seeking, reaches it, or is of an unknown domain. -/
theorem TaskMoved.endsAt {url : Url} {ticket : Nat} {task : Task Url}
    (moved : TaskMoved crates url ticket shared task input next after) (seeking : task.Seeking)
    (answered : (Worker.working url ticket task).answered crates shared.service input = true) :
    after.Pursues url ∨ EndsAt crates shared next (.working url ticket task) input url := by
  have goesOn : ∀ task : Task Url, task.Seeking → (Worker.working url ticket task).Pursues url := by
    intro task seeking
    refine ⟨rfl, ?_⟩
    rintro _ _ _ ⟨⟩
    exact seeking
  cases moved with
  | checkFailed _ failed =>
    exact (@not_failed_of_callSucceeds _ _ _ url ticket _ _ _ _ _ answered rfl failed).elim
  | checkedStray _ hasNone => exact Or.inr (Or.inl (Or.inr (Or.inr hasNone)))
  | checkedUnknown _ unknown =>
    refine Or.inr (Or.inr ?_)
    rw [Worker.spends, unknown]
    exact List.mem_singleton_self url
  | checkedDisallowed _ => exact Or.inr (Or.inl (Or.inr (Or.inl List.mem_cons_self)))
  | checkedSitemap _ | checkedPage _ _ | awaited | slept => exact Or.inl (goesOn _ trivial)
  | sitemapDelayAsked _ next | delayAsked _ next =>
    rcases next with rfl | ⟨failed, _⟩
    · exact Or.inl (goesOn _ trivial)
    · exact (@not_failed_of_callSucceeds _ _ _ url ticket _ _ _ _ _ answered rfl failed).elim
  | sitemapFetched _ | sitemapFailed | pageFetched _ _ | pageFailed =>
    exact Or.inr (Or.inl (Or.inl List.mem_cons_self))
  | _ => exact seeking.elim

/-- A URL that a worker pursues stays pursued, goes back to the queue or is settled. -/
theorem WorkerMoved.endsAt (moved : WorkerMoved crates shared worker input next after) {url : Url}
    (pursued : worker.Pursues url)
    (answered : worker.answered crates shared.service input = true) :
    after.Pursues url ∨ next.service.queue.Queued crates url ∨
      EndsAt crates shared next worker input url := by
  by_cases works : ∃ held ticket task, worker = .working held ticket task
  · obtain ⟨held, ticket, task, rfl⟩ := works
    obtain ⟨same, seeking⟩ := pursued
    obtain rfl : held = url := Option.some.inj same
    cases moved with
    | task moved => exact (moved.endsAt (seeking _ _ _ rfl) answered).imp_right Or.inr
    | released owed => rcases owed with ⟨⟨⟩, _⟩ | ⟨⟨⟩, _⟩ | ⟨_, ⟨⟩, _⟩
  · have outside : ∀ held ticket task, worker ≠ .working held ticket task :=
      fun held ticket task same => works ⟨held, ticket, task, same⟩
    have known : checksKnown crates shared.service worker = true := by
      cases worker with
      | working held ticket task => exact absurd rfl (outside held ticket task)
      | _ => rfl
    exact (moved.pursued pursued (callSucceeds_of_answered answered outside) known).imp_right
      (Or.imp_right Or.inl)

/-- What waits goes on waiting, or the worker takes it. -/
theorem WorkerMoved.staysQueued (moved : WorkerMoved crates shared worker input next after)
    {url : Url} (queued : shared.service.queue.Queued crates url)
    (answered : worker.answered crates shared.service input = true) :
    next.service.queue.Queued crates url ∨ after.Pursues url := by
  by_cases works : ∃ held ticket task, worker = .working held ticket task
  · obtain ⟨held, ticket, task, rfl⟩ := works
    obtain ⟨text, member, parsed⟩ := queued
    cases moved with
    | task moved => exact Or.inl ⟨text, moved.queueGrows.waiting member, parsed⟩
    | released owed => exact Or.inl ⟨text, member, parsed⟩
  · exact moved.queued queued (callSucceeds_of_answered answered
      fun held ticket task same => works ⟨held, ticket, task, same⟩)

end Steps

/-! ### The sitemaps of the consumer -/

section Service

variable {crates : Crates Url} {service next : StorageService Url} {action : ServiceAction Url}

/-- A sitemap that is looked at was seen, or is to be pushed. -/
theorem offer_secures [DecidableEq Url] (exact : crates.FilterExact)
    (moved : service.offer crates = some next) :
    ∀ url ∈ next.storage.seenUrls.seenUrls,
      url ∈ service.storage.seenUrls.seenUrls ∨ crates.url.asStr url ∈ next.consumer.filtered := by
  obtain ⟨id, sitemap, sitemaps, batch, _, ⟨_, _, rfl⟩ | ⟨url, _, rfl⟩⟩ :=
    offer_eq_some crates moved
  · exact fun other member => Or.inl member
  · intro other member
    have noted : other = url ∨ other ∈ service.storage.seenUrls.seenUrls :=
      (SeenUrls.mem_insertUrl exact _).mp member
    rcases noted with rfl | before
    · cases old : (service.storage.insertUrlInSeenUrls crates other).1 with
      | true => exact Or.inl ((SeenUrls.insertUrl_fst exact _).mp old)
      | false => exact Or.inr List.mem_cons_self
    · exact Or.inl before

/-- A service that stays up marks only the sitemaps that it looks at. -/
theorem ServiceMoved.seen_eq (moved : ServiceMoved crates service action next)
    (up : staysUp action = true) (offers : action ≠ .offer) :
    next.storage.seenUrls = service.storage.seenUrls := by
  cases moved with
  | started _ _ => cases up
  | offered _ _ _ => exact absurd rfl offers
  | processed _ _ | dropped _ _ _ => exact processStreamEntry_seenUrls _ _ _
  | looked request =>
    cases request with
    | check url faults => exact checkIfUrlAllowed_seenUrls _ _ _
    | delay domain faults => exact cachedOrStored_seenUrls _ _ _
    | insertUrl url => cases up
    | evict domain => rfl
  | _ => rfl

/-- The sitemap in hand stays there or is pushed. -/
theorem ServiceMoved.filtered_cases (moved : ServiceMoved crates service action next)
    (up : staysUp action = true) (pushes : action ≠ .pushSitemap .failed) :
    ∀ text ∈ service.consumer.filtered,
      text ∈ next.consumer.filtered ∨ text ∈ next.queue.pushed := by
  intro text member
  cases moved with
  | started _ _ | killed => cases up
  | pushed pushing _ _ =>
    rw [pushing] at member
    exact Or.inr (List.mem_append_right _ member)
  | pushFailed _ _ => exact absurd rfl pushes
  | published _ | readFailed | looked _ => exact Or.inl member
  | groupCreated stands _ _ | groupFailed stands | readAnswered stands | readLost stands
  | processed stands _ | dropped stands _ _ | offered stands _ _ | acked stands _
  | ackFailed stands | shutDown stands =>
    rw [stands] at member
    cases member

end Service

/-! ### The run -/

theorem TaskQueue.Grows.pushed_subset {before after : TaskQueue} (grows : before.Grows after) :
    before.pushed ⊆ after.pushed := by
  obtain ⟨urls, rfl⟩ := grows
  exact List.subset_append_left _ _

theorem TaskQueue.WasPushed.mono {crates : Crates Url} {before after : TaskQueue} {url : Url}
    (pushed : before.WasPushed crates url) (grows : before.pushed ⊆ after.pushed) :
    after.WasPushed crates url := by
  obtain ⟨text, member, parsed⟩ := pushed
  exact ⟨text, grows member, parsed⟩

section Workers

variable [DecidableEq Url] {crates : Crates Url} {graph : Url → List Url}
  {exploration : Exploration Url n} {id : Fin n} {input : Input Url} {shared : Shared Url}
  {worker : Worker Url} {url : Url}

omit [DecidableEq Url] in
theorem Exploration.settled_iff : exploration.Settled crates url ↔
    exploration.crawler.shared.journal.Ended crates url ∨ url ∈ exploration.spent := by
  simp only [Settled, Closed, Journal.Ended, or_assoc]

/-- The crawl after a step of a worker. -/
def Crawler.worked (crawler : Crawler Url n) (id : Fin n) (shared : Shared Url)
    (worker : Worker Url) : Crawler Url n :=
  { crawler with shared, workers := Function.update crawler.workers id worker }

omit [DecidableEq Url] in
/-- What holds of the worker that moves holds of a worker. -/
theorem Crawler.exists_worked {crawler : Crawler Url n} (holds : Worker Url → Prop)
    (held : holds worker) : ∃ other, holds ((crawler.worked id shared worker).workers other) :=
  ⟨id, by
    show holds (Function.update crawler.workers id worker id)
    rwa [Function.update_self]⟩

theorem WorkerMoved.pushed_subset {before after : Shared Url} {left : Worker Url}
    (moved : WorkerMoved crates before worker input after left) :
    before.service.queue.pushed ⊆ after.service.queue.pushed := by
  cases moved with
  | requeued | requeueFailed _ => exact (pushTasks_grows _ _ _).pushed_subset
  | task moved => exact moved.queueGrows.pushed_subset
  | _ => exact List.Subset.refl _

/-- A URL that is in a hand to be pushed stays there or is pushed. -/
theorem Crawler.Secures.worked {crawler : Crawler Url n} (secures : crawler.Secures crates url)
    (keeps : KeepsLinks crates graph crawler.shared (crawler.workers id) shared worker)
    (moved : WorkerMoved crates crawler.shared (crawler.workers id) input shared worker) :
    (crawler.worked id shared worker).Secures crates url := by
  let inHand : Worker Url → Prop := fun worker => crates.url.asStr url ∈ worker.filtered
  rcases secures with pushed | hand | consumer
  · exact Or.inl (pushed.mono moved.pushed_subset)
  · rcases Transition.exists_update crawler.workers id worker inHand hand with kept | held
    · exact Or.inr (Or.inl kept)
    · exact (keeps.filtered url held).symm.imp_right fun kept =>
        Or.inl (Crawler.exists_worked inHand kept)
  · exact Or.inr (Or.inr (moved.consumer_eq.symm ▸ consumer))

/-- The exploration after a step of a worker. -/
def Exploration.worked (crates : Crates Url) (exploration : Exploration Url n) (id : Fin n)
    (input : Input Url) (shared : Shared Url) (worker : Worker Url) : Exploration Url n :=
  ⟨exploration.crawler.worked id shared worker,
    exploration.spent ++ spentBy crates exploration.crawler (.worker id input)⟩

/-- What is settled stays so, and an end settles. -/
theorem Exploration.settled_worked
    (moved : WorkerMoved crates exploration.crawler.shared (exploration.crawler.workers id) input
      shared worker)
    (settled : exploration.Settled crates url ∨ EndsAt crates exploration.crawler.shared shared
      (exploration.crawler.workers id) input url) :
    (exploration.worked crates id input shared worker).Settled crates url := by
  rw [settled_iff] at settled ⊢
  rcases settled with (ended | spent) | ended | spent
  · exact Or.inl (moved.ended ended)
  · exact Or.inr (List.mem_append_left _ spent)
  · exact Or.inl ended
  · exact Or.inr (List.mem_append_right _ spent)

/-- A URL that was pushed waits, or a worker pursues it, or it is settled. -/
theorem Exploration.Covers.pushed_worked (covers : exploration.Covers crates graph)
    (answered : (exploration.crawler.workers id).answered crates
      exploration.crawler.shared.service input = true)
    (moved : WorkerMoved crates exploration.crawler.shared (exploration.crawler.workers id) input
      shared worker) (pushed : shared.service.queue.WasPushed crates url) :
    shared.service.queue.Queued crates url ∨
      (∃ other, ((exploration.crawler.worked id shared worker).workers other).Pursues url) ∨
        (exploration.worked crates id input shared worker).Settled crates url := by
  let pursues : Worker Url → Prop := fun worker => worker.Pursues url
  rcases moved.wasPushed pushed with before | fresh
  · rcases covers.pushed url before with queued | held | settled
    · exact (moved.staysQueued queued answered).imp_right fun holds =>
        Or.inl (Crawler.exists_worked pursues holds)
    · rcases Transition.exists_update exploration.crawler.workers id worker pursues held with
        kept | held
      · exact Or.inr (Or.inl kept)
      · rcases moved.endsAt held answered with holds | queued | ends
        · exact Or.inr (Or.inl (Crawler.exists_worked pursues holds))
        · exact Or.inl queued
        · exact Or.inr (Or.inr (Exploration.settled_worked moved (Or.inr ends)))
    · exact Or.inr (Or.inr (Exploration.settled_worked moved (Or.inl settled)))
  · exact Or.inl fresh

/-- A step of a worker keeps everything somewhere. -/
theorem Exploration.Covers.worked (exact : crates.FilterExact)
    (covers : exploration.Covers crates graph)
    (allowed : exploration.crawler.givesUpNone crates graph (.worker id input) = true)
    (stepped : workerStep crates input exploration.crawler.shared
      (exploration.crawler.workers id) = some (shared, worker)) :
    (exploration.worked crates id input shared worker).Covers crates graph := by
  obtain ⟨answered, shows⟩ := Bool.and_eq_true_iff.mp allowed
  have keeps := workerStep_keepsLinks exact answered shows stepped
  have moved := workerStep_moved stepped
  have stays : ∀ url, exploration.crawler.Secures crates url →
      (exploration.crawler.worked id shared worker).Secures crates url :=
    fun url secures => secures.worked keeps moved
  have found : ∀ url, crates.url.asStr url ∈ worker.filtered →
      (exploration.crawler.worked id shared worker).Secures crates url := fun url kept =>
    Or.inr (Or.inl (Crawler.exists_worked
      (fun worker => crates.url.asStr url ∈ worker.filtered) kept))
  refine ⟨fun url => covers.pushed_worked answered moved, fun url member => ?_,
    fun page member link listed => ?_⟩
  · exact (keeps.seen url member).elim (fun before => stays url (covers.seen url before))
      (found url)
  · let asks : Worker Url → Prop := fun worker => link ∈ worker.toInsert
    rcases keeps.shown page member with before | reads
    · rcases covers.shown page before link listed with secured | held
      · exact Or.inl (stays link secured)
      · rcases Transition.exists_update exploration.crawler.workers id worker asks held with
          kept | held
        · exact Or.inr kept
        · rcases keeps.toInsert link held with kept | kept | seen
          · exact Or.inr (Crawler.exists_worked asks kept)
          · exact Or.inl (found link kept)
          · exact Or.inl (stays link (covers.seen link seen))
    · exact Or.inr (Crawler.exists_worked asks (reads link listed))

end Workers

section Runs

variable [DecidableEq Url] {crates : Crates Url} {graph : Url → List Url}
  {exploration next : Exploration Url n} {limit : Option (BitVec 64)} {action : CrawlerAction Url n}

/-- A step of the storage service keeps everything somewhere. -/
theorem Exploration.Covers.served (exact : crates.FilterExact) {action : ServiceAction Url}
    {service : StorageService Url} (covers : exploration.Covers crates graph)
    (allowed : exploration.crawler.givesUpNone crates graph (.service action) = true)
    (stepped : serviceStep crates action exploration.crawler.shared.service = some service) :
    Exploration.Covers crates graph ⟨{ exploration.crawler with
      shared := { exploration.crawler.shared with service } }, exploration.spent⟩ := by
  have moved := serviceStep_moved crates stepped
  obtain ⟨up, pushes⟩ : staysUp action = true ∧ action ≠ .pushSitemap .failed := by
    cases action with
    | pushSitemap call =>
      refine ⟨rfl, fun same => ?_⟩
      cases same
      cases allowed
    | _ => exact ⟨allowed, fun same => by cases same⟩
  have stays : ∀ url, exploration.crawler.Secures crates url →
      Crawler.Secures crates { exploration.crawler with
        shared := { exploration.crawler.shared with service } } url := by
    rintro url (pushed | hand | consumer)
    · exact Or.inl (pushed.mono moved.queueGrows.pushed_subset)
    · exact Or.inr (Or.inl hand)
    · rcases moved.filtered_cases up pushes _ consumer with kept | pushed
      · exact Or.inr (Or.inr kept)
      · exact Or.inl ⟨_, pushed, crates.url.parse_asStr url⟩
  have seen : ∀ url ∈ service.storage.seenUrls.seenUrls,
      url ∈ exploration.crawler.shared.service.storage.seenUrls.seenUrls ∨
        crates.url.asStr url ∈ service.consumer.filtered := by
    by_cases offers : action = .offer
    · subst offers
      exact offer_secures exact stepped
    · rw [moved.seen_eq up offers]
      exact fun url member => Or.inl member
  refine ⟨?_, fun url member => ?_, fun page member link listed => ?_⟩
  · rintro url ⟨text, member, parsed⟩
    rcases moved.queueGrows.pushed member with before | fresh
    · refine (covers.pushed url ⟨text, before, parsed⟩).imp_left ?_
      rintro ⟨text, member, parsed⟩
      exact ⟨text, moved.queueGrows.waiting member, parsed⟩
    · exact Or.inl ⟨text, fresh, parsed⟩
  · exact (seen url member).elim (fun before => stays url (covers.seen url before))
      fun kept => Or.inr (Or.inr kept)
  · exact (covers.shown page member link listed).imp_left (stays link)

omit [DecidableEq Url] in
/-- Only a worker spends a URL. -/
theorem spentBy_eq_nil {crawler : Crawler Url n} (other : ∀ id input, action ≠ .worker id input) :
    spentBy crates crawler action = [] := by
  cases action with
  | worker id input => exact absurd rfl (other id input)
  | _ => rfl

/-- Every step that gives up nothing keeps everything somewhere. -/
theorem explorationStep_covers (exact : crates.FilterExact)
    (covers : exploration.Covers crates graph)
    (allowed : exploration.crawler.givesUpNone crates graph action = true)
    (moved : explorationStep crates limit action exploration = some next) :
    next.Covers crates graph := by
  obtain ⟨crawler, stepped, rfl⟩ := Option.map_eq_some_iff.mp moved
  cases action with
  | worker id input =>
    obtain ⟨⟨shared, worker⟩, worked, rfl⟩ := Option.map_eq_some_iff.mp stepped
    exact covers.worked exact allowed worked
  | service action =>
    obtain ⟨service, served, rfl⟩ := Option.map_eq_some_iff.mp stepped
    rw [spentBy_eq_nil (fun _ _ same => by cases same), List.append_nil]
    exact covers.served exact allowed served
  | _ =>
    rw [spentBy_eq_nil (fun _ _ same => by cases same), List.append_nil]
    cases crawlerStep_moved crates stepped
    exact ⟨covers.pushed, covers.seen, covers.shown⟩

/-- The link is shown for a URL that the crawl may download. -/
def Exploration.LeadsTo (crates : Crates Url) (graph : Url → List Url)
    (exploration : Exploration Url n) (page link : Url) : Prop :=
  ¬ exploration.Closed crates page ∧ link ∈ graph page

/-- A crawl that gives up nothing and is over has searched the graph: every URL that a chain of
links leads to from a URL that was ever pushed was downloaded, or is closed to the crawl. -/
theorem crawl_complete (exact : crates.FilterExact) {clock : Instant}
    {started : StorageService Url × Nat}
    (marked : ∀ url ∈ started.1.storage.seenUrls.seenUrls, started.1.queue.Queued crates url)
    (reached : Transition.ReachesWith (explorationStep crates limit)
      (fun exploration action => exploration.crawler.givesUpNone crates graph action = true)
      ⟨Crawler.begin clock started, []⟩ exploration)
    (ended : exploration.crawler.Over) {root url : Url}
    (pushed : exploration.crawler.shared.service.queue.WasPushed crates root)
    (leads : Relation.ReflTransGen (exploration.LeadsTo crates graph) root url) :
    url ∈ exploration.crawler.shared.journal.downloaded ∨ exploration.Closed crates url := by
  have start : Exploration.Covers crates graph (⟨Crawler.begin clock started, []⟩ :
      Exploration Url n) :=
    ⟨fun url pushed => Or.inl pushed, fun url seen => Or.inl (marked url seen),
      fun page member => by cases member⟩
  have covers : exploration.Covers crates graph :=
    reached.invariant start fun _ _ _ covers allowed moved =>
      explorationStep_covers exact covers allowed moved
  have settled : ∀ url, exploration.crawler.shared.service.queue.WasPushed crates url →
      exploration.Settled crates url := by
    intro url pushed
    rcases covers.pushed url pushed with ⟨text, member, _⟩ | ⟨id, held, _⟩ | settled
    · rw [ended.queue] at member
      cases member
    · rw [ended.workers id] at held
      cases held
    · exact settled
  induction leads with
  | refl => exact settled root pushed
  | @tail page link _ leads inductionHypothesis =>
    refine settled link ?_
    rcases covers.shown page (inductionHypothesis.resolve_right leads.1) link leads.2 with
      (secured | ⟨id, held⟩ | held) | ⟨id, held⟩
    · exact secured
    · rw [ended.workers id] at held
      cases held
    · rw [ended.consumer] at held
      cases held
    · rw [ended.workers id] at held
      cases held

end Runs

/-! ### The sample web -/

/-- The home page links to the second site. -/
def sampleGraph : SampleUrl → List SampleUrl
  | .home => [.other]
  | _ => []

/-- The second site is reached from the home page. -/
theorem crawl_complete_sample : ∃ started,
    sampleStart (CrawlerDb.sample.upsertDomain ⟨"b.example", none, 0⟩) "https://a.example/" =
      some started ∧
      ∃ exploration : Exploration SampleUrl 1,
        Transition.run (explorationStep sampleCrates none) sampleSearch
          ⟨Crawler.begin 0 started, []⟩ = some exploration ∧
        (.other ∈ exploration.crawler.shared.journal.downloaded ∨
          exploration.Closed sampleCrates .other) := by
  obtain ⟨started, starts, seen, waits, exploration, ran, gone, empty, consumer, pushed, disallowed,
      spent⟩ : ∃ started,
      sampleStart (CrawlerDb.sample.upsertDomain ⟨"b.example", none, 0⟩) "https://a.example/" =
        some started ∧ started.1.storage.seenUrls.seenUrls = [.home] ∧
        started.1.queue.waiting = ["https://a.example/"] ∧
        ∃ exploration : Exploration SampleUrl 1, Transition.runWith
          (explorationStep sampleCrates none) (fun exploration action =>
            exploration.crawler.givesUpNone sampleCrates sampleGraph action = true)
          sampleSearch ⟨Crawler.begin 0 started, []⟩ = some exploration ∧
          exploration.crawler.workers (Fin.last 0) = .exited ∧
          exploration.crawler.shared.service.queue.waiting = [] ∧
          exploration.crawler.shared.service.consumer.filtered = [] ∧
          exploration.crawler.shared.service.queue.pushed =
            ["https://a.example/", "https://b.example/"] ∧
          exploration.crawler.shared.journal.disallowed = [] ∧ exploration.spent = [] :=
    ⟨_, rfl, rfl, rfl, _, rfl, rfl, rfl, rfl, rfl, rfl, rfl⟩
  have ended : exploration.crawler.Over := ⟨fun id =>
    (congrArg exploration.crawler.workers (Subsingleton.elim id (Fin.last 0))).trans gone, empty,
    consumer⟩
  have parsed : sampleCrates.url.parse "https://a.example/" = .ok .home := rfl
  have home : exploration.crawler.shared.service.queue.WasPushed sampleCrates .home := by
    refine ⟨"https://a.example/", ?_, parsed⟩
    rw [pushed]
    exact List.mem_cons_self
  have leads : exploration.LeadsTo sampleCrates sampleGraph .home .other := by
    refine ⟨?_, List.mem_cons_self⟩
    rw [Exploration.Closed, disallowed, spent]
    rintro (member | ⟨⟨⟩⟩ | member) <;> cases member
  refine ⟨started, starts, exploration, Transition.run_of_runWith ran,
    crawl_complete filterExact_sample (fun url member => ?_)
      (Transition.reachesWith_of_runWith ran) ended home (.single leads)⟩
  rw [seen] at member
  obtain rfl := List.mem_singleton.mp member
  refine ⟨"https://a.example/", ?_, parsed⟩
  rw [waits]
  exact List.mem_cons_self

end PoliteCrawler
