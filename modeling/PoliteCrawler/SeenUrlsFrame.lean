/-
This file says which steps leave the seen URLs alone, and which the stream.

Only `insert_url` touches the seen URLs: the checks, the delays, the saves and
the queue calls do not. The launch steps aside from the stream and its consumer,
and a worker adds to the stream the event of the domain or the page it carries.
-/

import PoliteCrawler.Launch

namespace PoliteCrawler

variable {Url : Type} {crates : Crates Url}

/-! ### The seen URLs -/

theorem cachedOrStored_seenUrls (storage : CrawlerStorage Url) (faults : DbFaults)
    (domain : String) :
    (storage.cachedOrStored crates faults domain).2.seenUrls = storage.seenUrls := by
  obtain ⟨domainCache, _, state⟩ := cachedOrStored_state crates storage faults domain
  rw [state]

theorem checkIfUrlAllowed_seenUrls (storage : CrawlerStorage Url) (faults : DbFaults) (url : Url) :
    (storage.checkIfUrlAllowed crates faults url).2.seenUrls = storage.seenUrls := by
  unfold CrawlerStorage.checkIfUrlAllowed
  split
  · rfl
  · exact cachedOrStored_seenUrls storage faults _

theorem publishEvent_storage (service : StorageService Url) (event : ParsedData) (call : Call) :
    (publishEvent crates service event call).storage = service.storage := by
  unfold publishEvent
  split <;> rfl

theorem pushTasks_storage (service : StorageService Url) (urls : List String) (call : Call) :
    (pushTasks service urls call).storage = service.storage := by
  unfold pushTasks
  split <;> rfl

theorem afterCheck_service (url : Url) (ticket : Nat) (shared next : Shared Url)
    (answer : Outcome UrlAccess) :
    (afterCheck crates url ticket shared next answer).1.service = next.service := by
  unfold afterCheck
  split <;> try rfl
  split <;> try rfl
  split <;> rfl

theorem saveParsedData_seenUrls (storage : CrawlerStorage Url) (faults : DbFaults)
    (data : ParsedData) :
    (storage.saveParsedData crates faults data).2.seenUrls = storage.seenUrls := by
  generalize result : storage.saveParsedData crates faults data = saved
  have saves := saveParsedData_saved crates storage faults data
  rw [result] at saves
  generalize saved.1 = answer, saved.2 = after at saves ⊢
  cases saves <;> rfl

theorem processStreamEntry_seenUrls (storage : CrawlerStorage Url) (faults : DbFaults)
    (entry : StreamEntry) :
    (processStreamEntry crates storage faults entry).2.seenUrls = storage.seenUrls := by
  unfold processStreamEntry
  split
  · rfl
  · split
    · rfl
    · exact saveParsedData_seenUrls storage faults _

/-! ### Steps beside the stream -/

section Stream

variable {shared next : Shared Url}

/-- The step adds nothing to the stream and leaves the storage to a lookup at most. -/
structure Aside (crates : Crates Url) (shared next : Shared Url) : Prop where
  log : next.service.log = shared.service.log
  consumer : next.service.consumer = shared.service.consumer
  storage : next.service.storage = shared.service.storage ∨
    ∃ request, next.service.storage = shared.service.storage.afterLookup crates request
  published : next.journal.published = shared.journal.published

theorem LookedUp.aside {service : StorageService Url}
    (looked : LookedUp crates shared.service service) :
    Aside crates shared { shared with service } := by
  rcases looked with rfl | ⟨request, rfl⟩
  · exact ⟨rfl, rfl, Or.inl rfl, rfl⟩
  · exact ⟨rfl, rfl, Or.inr ⟨request, rfl⟩, rfl⟩

theorem pushTasks_aside (urls : List String) (call : Call) :
    Aside crates shared { shared with service := pushTasks shared.service urls call } := by
  unfold pushTasks
  split <;> exact ⟨rfl, rfl, Or.inl rfl, rfl⟩

theorem publishEvent_consumer (service : StorageService Url) (event : ParsedData) (call : Call) :
    (publishEvent crates service event call).consumer = service.consumer := by
  unfold publishEvent
  split <;> rfl

/-- The launch has its URLs noted and pushed, and leaves the stream alone. -/
theorem launchStep_aside {launch left : Launch Url} {input : Input Url}
    (moved : launchStep crates input shared launch = some (next, left)) :
    Aside crates shared next := by
  have noted : ∀ {text : String} {answer : Outcome Bool} {service : StorageService Url},
      rpc shared.service input (serveInsert crates text) = some (answer, service) →
      Aside crates shared { shared with service } := by
    intro text answer service called
    obtain ⟨faults, call, rfl, served, _⟩ := rpc_eq_some called
    exact (lookedUp_of_served served
      (serveInsert_lookedUp crates shared.service text faults)).aside
  have pushed : ∀ (urls : List String) (call : Call) (activeTasks : BitVec 64),
      Aside crates shared { shared with
        service := pushTasks shared.service urls call, activeTasks } := by
    intro urls call activeTasks
    have aside : Aside crates shared _ := pushTasks_aside urls call
    exact ⟨aside.log, aside.consumer, aside.storage, rfl⟩
  cases launch with
  | checking startUrl seed =>
    cases input <;> cases moved
    exact ⟨rfl, rfl, Or.inl rfl, rfl⟩
  | cleaning startUrl =>
    cases input <;> cases moved
    unfold cleanQueue
    split <;> exact ⟨rfl, rfl, Or.inl rfl, rfl⟩
  | pushing url =>
    cases input <;> cases moved
    exact pushed _ _ _
  | marking url =>
    obtain ⟨⟨answer, service⟩, called, made⟩ := Option.map_eq_some_iff.mp moved
    obtain ⟨rfl, _⟩ := Prod.mk.inj made
    exact noted called
  | seeding remaining filtered =>
    cases remaining with
    | nil =>
      cases filtered with
      | nil =>
        cases input <;> cases moved
        exact ⟨rfl, rfl, Or.inl rfl, rfl⟩
      | cons text rest =>
        cases input <;> cases moved
        exact pushed _ _ _
    | cons text remaining =>
      obtain ⟨⟨answer, service⟩, called, made⟩ := Option.map_eq_some_iff.mp moved
      obtain ⟨rfl, _⟩ := Prod.mk.inj made
      exact noted called
  | counting =>
    cases input <;> cases moved
    exact ⟨rfl, rfl, Or.inl rfl, rfl⟩
  | running => cases moved
  | ended => cases moved

end Stream

/-! ### The steps of a worker -/

section Workers

variable [DecidableEq Url] {shared next : Shared Url}

/-- Only the links of a page and of a sitemap are noted. -/
theorem taskStep_seenUrls {url : Url} {ticket : Nat} {task : Task Url} {input : Input Url}
    {worker : Worker Url}
    (moved : taskStep crates input url ticket shared task = some (next, worker))
    (quiet : ∀ link rest filtered, task ≠ .inserting (link :: rest) filtered) :
    next.service.storage.seenUrls = shared.service.storage.seenUrls := by
  cases task with
  | checking =>
    obtain ⟨⟨answer, service⟩, called, made⟩ := Option.map_eq_some_iff.mp moved
    obtain ⟨faults, call, rfl, served, _⟩ := rpc_eq_some called
    have seen : service.storage.seenUrls = shared.service.storage.seenUrls := by
      rcases served with rfl | rfl
      · rfl
      · rw [serveCheck_asStr]
        exact checkIfUrlAllowed_seenUrls _ _ _
    have same : (afterCheck crates url ticket shared { shared with service } answer).1.service =
      service := afterCheck_service _ _ _ _ _
    rw [show afterCheck crates url ticket shared { shared with service } answer = (next, worker) from
      made] at same
    exact (congrArg (·.storage.seenUrls) same).trans seen
  | askingSitemapDelay domain =>
    obtain ⟨faults, call, service, rfl, rfl, rfl | rfl, _⟩ := askDelayTask_eq_some moved
    · rfl
    · exact cachedOrStored_seenUrls _ _ _
  | askingDelay host decided =>
    obtain ⟨faults, call, service, rfl, rfl, rfl | rfl, _⟩ := askDelayTask_eq_some moved
    · rfl
    · exact cachedOrStored_seenUrls _ _ _
  | inserting links filtered =>
    cases links with
    | nil => cases taskStep_moved moved <;> rfl
    | cons link rest => exact absurd rfl (quiet link rest filtered)
  | savingDomain data =>
    cases taskStep_moved moved
    exact congrArg _ (publishEvent_storage _ _ _)
  | savingPage page decided =>
    cases taskStep_moved moved
    · exact congrArg _ (publishEvent_storage _ _ _)
    · rfl
  | pushing attempt filtered =>
    cases taskStep_moved moved <;> exact congrArg _ (pushTasks_storage _ _ _)
  | _ => cases taskStep_moved moved <;> rfl

/-- A step of a worker adds the event of the domain or the page it carries, or steps aside. -/
theorem WorkerMoved.stream_cases {worker after : Worker Url} {input : Input Url}
    (moved : WorkerMoved crates shared worker input next after) :
    Aside crates shared next ∨
      (∃ url ticket data call, worker = .working url ticket (.savingDomain data) ∧
        next = { shared with
          service := publishEvent crates shared.service
            (.parsedDomain (DomainDataSaveData.fromDomainData data)) call }) ∨
      ∃ url ticket page decided call, worker = .working url ticket (.savingPage page decided) ∧
        input = .redis call ∧ call ≠ .failed ∧
        next = shared.notePublished ⟨convertParsedPageToSaveData crates page, decided⟩
          (publishEvent crates shared.service
            (.parsedPage (convertParsedPageToSaveData crates page)) call) := by
  cases moved with
  | requeued | requeueFailed _ => exact Or.inl (pushTasks_aside _ _)
  | task moved =>
    cases moved with
    | checkFailed looked _ | checkedStray looked _ | checkedUnknown looked _
    | checkedDisallowed looked | checkedSitemap looked | checkedPage looked _
    | sitemapDelayAsked looked _ | delayAsked looked _ | linkInserted looked _ =>
      exact Or.inl ⟨looked.aside.log, looked.aside.consumer, looked.aside.storage, rfl⟩
    | domainSaved _ => exact Or.inr (Or.inl ⟨_, _, _, _, rfl, rfl⟩)
    | pageSaved performed _ =>
      exact Or.inr (Or.inr ⟨_, _, _, _, _, rfl, rfl, performed, rfl⟩)
    | pushed | pushFailed _ _ => exact Or.inl (pushTasks_aside _ _)
    | _ => exact Or.inl ⟨rfl, rfl, Or.inl rfl, rfl⟩
  | _ => exact Or.inl ⟨rfl, rfl, Or.inl rfl, rfl⟩

/-- The workers leave the consumer alone. -/
theorem WorkerMoved.consumer_eq {after : Shared Url} {worker left : Worker Url}
    {input : Input Url} (moved : WorkerMoved crates shared worker input after left) :
    after.service.consumer = shared.service.consumer := by
  rcases moved.stream_cases with aside | ⟨_, _, _, _, _, rfl⟩ | ⟨_, _, _, _, _, _, _, _, rfl⟩
  · exact aside.consumer
  · exact publishEvent_consumer _ _ _
  · exact publishEvent_consumer _ _ _

end Workers

end PoliteCrawler
