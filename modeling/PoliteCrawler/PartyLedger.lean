/-
This file reads what the parties of a deployment do as events of a ledger: the
seen URLs are marked, and a worker, the consumer and the launch have in hand
what they are to push.

Three places of the source note URLs and push them, each in its own way: a
worker with the links of a page, the consumer with the sitemaps of a domain, and
the launch with the seeds, whose answers it does not look at, and with the start
URL, which it pushes first. The events say what each of their steps means, and
every step moves the ledger, as its party sees it, by its event.
-/

import PoliteCrawler.Ledger
import PoliteCrawler.SeenUrlsFrame
import PoliteCrawler.TaskConservation

namespace PoliteCrawler

open Ledger (Event)

variable {Url : Type}

/-! ### The ledger -/

section Parties

variable (crates : Crates Url)

/-- The URLs that the texts parse to. -/
def urlsOf (texts : List String) : List Url :=
  texts.filterMap fun text => (crates.url.parse text).toOption

theorem urlsOf_append (texts more : List String) :
    urlsOf crates (texts ++ more) = urlsOf crates texts ++ urlsOf crates more :=
  List.filterMap_append

variable {crates} in
theorem urlsOf_singleton {text : String} {url : Url} (parsed : crates.url.parse text = .ok url) :
    urlsOf crates [text] = [url] := by
  simp only [urlsOf, List.filterMap_cons, parsed, Except.toOption, List.filterMap_nil]

variable {crates} in
theorem urlsOf_singleton_error {text : String} {reason : ParseError}
    (unparsed : crates.url.parse text = .error reason) : urlsOf crates [text] = [] := by
  simp only [urlsOf, List.filterMap_cons, unparsed, Except.toOption, List.filterMap_nil]

/-- The sitemap that the consumer has found new and not yet pushed. -/
def Consumer.filtered : Consumer → List String
  | .pushing _ sitemap _ _ _ => [sitemap]
  | _ => []

/-- The seeds that the launch has noted and not yet pushed. -/
def Launch.filtered : Launch Url → List String
  | .seeding _ filtered => filtered
  | _ => []

variable [DecidableEq Url]

/-- The ledger as a party sees it that has the texts in hand. -/
def partyLedger (service : StorageService Url) (texts popped entered : List String) :
    Ledger Url where
  marked := service.storage.seenUrls.seenUrls.toFinset
  inHand := urlsOf crates texts
  waiting := urlsOf crates service.queue.waiting
  popped := urlsOf crates popped
  entered := urlsOf crates entered

/-! ### The events -/

/-- A push of what a party has in hand. After the last attempt nothing is in hand. -/
def pushEvent (texts : List String) (last : Bool) (call : Call) : Event Url :=
  if call = .failed then if last then .drop (urlsOf crates texts) else .idle
  else .enter (urlsOf crates texts) (call = .answered || last)

/-- What a step of a worker means. It keeps a link that is new. -/
def workerEvent (service : StorageService Url) : Worker Url → Input Url → Event Url
  | .popping, .redis call => .pop (urlsOf crates (call.effect (service.queue.waiting.take 1)))
  | .requeueing url, .redis call =>
    .requeue (urlsOf crates (call.effect [crates.url.asStr url]))
  | .working _ _ (.inserting (link :: _) _), .rpc _ call =>
    .note link (call ≠ .failed)
      (call = .answered && decide (link ∉ service.storage.seenUrls.seenUrls))
  | .working _ _ (.pushing attempt filtered), .redis call =>
    pushEvent crates filtered (attempt = pushAttempts) call
  | _, _ => .idle

/-- What a step of the storage service means. The consumer keeps a sitemap that is new. -/
def serviceEvent (service : StorageService Url) : ServiceAction Url → Event Url
  | .offer =>
    match service.consumer with
    | .offering _ (sitemap :: _) _ =>
      match crates.url.parse sitemap with
      | .ok url => .note url true (url ∉ service.storage.seenUrls.seenUrls)
      | .error _ => .idle
    | _ => .idle
  | .pushSitemap call =>
    match service.consumer with
    | .pushing _ sitemap attempt _ _ => pushEvent crates [sitemap] (attempt = pushAttempts) call
    | _ => .idle
  | _ => .idle

/-- What a step of the launch means. It keeps every seed, and marks the start URL after its
push. -/
def launchEvent : Launch Url → Input Url → Event Url
  | .cleaning _, .redis call => if call = .failed then .idle else .wipe
  | .pushing url, .redis call => if call = .failed then .idle else .enter {url} false
  | .marking url, .rpc _ call => .note url (call ≠ .failed) false
  | .seeding (text :: _) _, .rpc _ call =>
    match crates.url.parse text with
    | .ok url => .note url (call ≠ .failed) true
    | .error _ => .idle
  | .seeding [] filtered, .redis call => pushEvent crates filtered true call
  | _, _ => .idle

end Parties

/-! ### Notes and pushes -/

section Calls

variable {crates : Crates Url} {service next : StorageService Url}
  {texts popped entered : List String} {url : Url}

variable (crates) in
/-- The service after an `insert_url` that takes effect, or does not. -/
def StorageService.noting (service : StorageService Url) (url : Url) (marks : Bool) :
    StorageService Url :=
  if marks then
    { service with storage := (service.storage.insertUrlInSeenUrls crates url).2 }
  else service

theorem queue_noting (marks : Bool) : (service.noting crates url marks).queue = service.queue := by
  cases marks <;> rfl

/-- `insert_url` takes effect unless the call fails, and answers whether the URL was seen. -/
theorem rpc_serveInsert {text : String} {input : Input Url} {answer : Outcome Bool}
    (parsed : crates.url.parse text = .ok url)
    (called : rpc service input (serveInsert crates text) = some (answer, next)) :
    ∃ faults call, input = .rpc faults call ∧ next = service.noting crates url (call ≠ .failed) ∧
      answer = if call = .answered then .ok (service.storage.insertUrlInSeenUrls crates url).1
        else .error (.error .grpcError) := by
  cases input with
  | rpc faults call =>
    refine ⟨faults, call, rfl, ?_⟩
    cases call <;> cases consumer : service.consumer <;>
      simp_all [rpc, serveInsert, StorageService.noting, Except.mapError]
  | _ => cases called

variable [DecidableEq Url]

theorem marked_noting (exact : crates.FilterExact) (marks : Bool) :
    (service.noting crates url marks).storage.seenUrls.seenUrls.toFinset =
      (partyLedger crates service texts popped entered).mark url marks := by
  cases marks with
  | false => rfl
  | true =>
    refine Finset.ext fun other => ?_
    show other ∈ (service.storage.seenUrls.insertUrl crates url).2.seenUrls.toFinset ↔
      other ∈ insert url service.storage.seenUrls.seenUrls.toFinset
    rw [List.mem_toFinset, SeenUrls.mem_insertUrl exact, Finset.mem_insert, List.mem_toFinset]

/-- A URL that is noted and not kept. -/
theorem moved_noted (exact : crates.FilterExact) (marks : Bool) :
    (partyLedger crates service texts popped entered).Moved (.note url marks false)
      (partyLedger crates (service.noting crates url marks) texts popped entered) := by
  rw [partyLedger, partyLedger, queue_noting, marked_noting exact]
  exact .noted

/-- A URL that is noted and kept. -/
theorem moved_taken (exact : crates.FilterExact) (marks : Bool) {text : String}
    (parsed : crates.url.parse text = .ok url) :
    (partyLedger crates service texts popped entered).Moved (.note url marks true)
      (partyLedger crates (service.noting crates url marks) (texts ++ [text]) popped entered) := by
  have hand : (urlsOf crates (texts ++ [text]) : Multiset Url) = url ::ₘ urlsOf crates texts := by
    rw [urlsOf_append, urlsOf_singleton parsed, ← Multiset.coe_add, add_comm]
    rfl
  rw [partyLedger, partyLedger, queue_noting, marked_noting exact, hand]
  exact .taken

/-- A URL that is noted, and kept when `insert_url` finds it new. -/
theorem moved_found (exact : crates.FilterExact) {text : String}
    (parsed : crates.url.parse text = .ok url) :
    (partyLedger crates service texts popped entered).Moved
      (.note url true (decide (url ∉ service.storage.seenUrls.seenUrls)))
      (partyLedger crates (service.noting crates url true)
        (if (service.storage.insertUrlInSeenUrls crates url).1 then texts else texts ++ [text])
        popped entered) := by
  have answered : (service.storage.insertUrlInSeenUrls crates url).1 = true ↔
      url ∈ service.storage.seenUrls.seenUrls := SeenUrls.insertUrl_fst exact _
  by_cases seen : (service.storage.insertUrlInSeenUrls crates url).1 = true
  · rw [if_pos seen, decide_eq_false (not_not_intro (answered.mp seen))]
    exact moved_noted exact true
  · rw [if_neg seen, decide_eq_true (mt answered.mpr seen)]
    exact moved_taken exact true parsed

theorem partyLedger_push {call : Call} (performed : call ≠ .failed) (left more : List String) :
    partyLedger crates (pushTasks service more call) left popped (entered ++ more) =
      { partyLedger crates service left popped entered with
        waiting := urlsOf crates service.queue.waiting + urlsOf crates more
        entered := urlsOf crates entered + urlsOf crates more } := by
  simp only [partyLedger, pushTasks, if_neg performed, TaskQueue.pushBulk, urlsOf_append,
    Multiset.coe_add]

/-- A push of what is in hand. -/
theorem moved_push (last : Bool) (call : Call) :
    (partyLedger crates service texts popped entered).Moved (pushEvent crates texts last call)
      (partyLedger crates (pushTasks service texts call)
        (if call = .answered || last then [] else texts) popped (entered ++ call.effect texts)) := by
  have kept : (urlsOf crates texts : Multiset Url) = urlsOf crates texts + 0 := (add_zero _).symm
  by_cases failed : call = .failed
  · subst failed
    have none : (entered ++ Call.effect .failed texts) = entered := List.append_nil _
    cases last with
    | true =>
      rw [none]
      exact .dropped kept
    | false =>
      rw [none]
      exact .idled
  · have all : call.effect texts = texts := if_neg failed
    rw [pushEvent, if_neg failed, all, partyLedger_push failed]
    cases decide (call = .answered) || last with
    | true => exact .entered kept
    | false => exact .enteredEarly

end Calls

/-! ### The steps of a worker -/

section Workers

variable [DecidableEq Url] {crates : Crates Url} {shared next : Shared Url}
  {popped entered : List String}

/-- The other tasks mean nothing to the ledger. -/
theorem Task.idle {url : Url} {ticket : Nat} {task : Task Url} {input : Input Url}
    {service : StorageService Url}
    (notes : ∀ link rest filtered, task ≠ .inserting (link :: rest) filtered)
    (pushes : ∀ attempt filtered, task ≠ .pushing attempt filtered) :
    workerEvent crates service (.working url ticket task) input = .idle ∧
      (Worker.working url ticket task).enters input = [] := by
  cases task with
  | inserting links filtered =>
    cases links with
    | nil => exact ⟨rfl, rfl⟩
    | cons link rest => exact absurd rfl (notes link rest filtered)
  | pushing attempt filtered => exact absurd rfl (pushes attempt filtered)
  | _ => exact ⟨rfl, rfl⟩

theorem moved_idle {service after : StorageService Url} {texts : List String}
    (seen : after.storage.seenUrls = service.storage.seenUrls) (queue : after.queue = service.queue) :
    (partyLedger crates service texts popped entered).Moved .idle
      (partyLedger crates after texts popped entered) := by
  rw [partyLedger, partyLedger, seen, queue]
  exact .idled

theorem insertTask_ledger (exact : crates.FilterExact) {url link : Url} {ticket : Nat}
    {rest : List Url} {filtered : List String} {input : Input Url} {worker : Worker Url}
    (moved : insertTask crates input url ticket (link :: rest) filtered shared =
      some (next, worker)) :
    (partyLedger crates shared.service filtered popped entered).Moved
      (workerEvent crates shared.service (.working url ticket (.inserting (link :: rest) filtered))
        input)
      (partyLedger crates next.service worker.filtered popped entered) := by
  obtain ⟨⟨answer, service⟩, called, made⟩ := Option.map_eq_some_iff.mp moved
  obtain ⟨faults, call, rfl, rfl, rfl⟩ := rpc_serveInsert (crates.url.parse_asStr link) called
  obtain ⟨rfl, rfl⟩ := Prod.mk.inj made
  cases call with
  | failed => exact moved_noted exact false
  | lost => exact moved_noted exact true
  | answered =>
    have found : (partyLedger crates shared.service filtered popped entered).Moved _ _ :=
      moved_found exact (crates.url.parse_asStr link)
    cases seen : (shared.service.storage.insertUrlInSeenUrls crates link).1 <;>
      (rw [seen] at found; exact found)

theorem TaskMoved.filtered_eq {url : Url} {ticket : Nat} {task : Task Url} {input : Input Url}
    {worker : Worker Url} (moved : TaskMoved crates url ticket shared task input next worker)
    (notes : ∀ link rest filtered, task ≠ .inserting (link :: rest) filtered)
    (pushes : ∀ attempt filtered, task ≠ .pushing attempt filtered) :
    worker.filtered = (Worker.working url ticket task).filtered := by
  cases moved with
  | linkInserted _ _ => exact absurd rfl (notes _ _ _)
  | pushed => exact absurd rfl (pushes _ _)
  | pushFailed _ _ => exact absurd rfl (pushes _ _)
  | domainSaved goesOn => rcases goesOn with rfl | ⟨_, rfl⟩ <;> rfl
  | sitemapDelayAsked _ goesOn => rcases goesOn with rfl | ⟨_, rfl⟩ <;> rfl
  | delayAsked _ goesOn => rcases goesOn with rfl | ⟨_, rfl⟩ <;> rfl
  | pageSaved _ goesOn => rcases goesOn with rfl | ⟨_, rfl⟩ <;> rfl
  | pageFetched _ goesOn => rcases goesOn with rfl | rfl <;> rfl
  | _ => rfl

/-- The steps that neither note nor push. -/
theorem taskStep_idle {url : Url} {ticket : Nat} {task : Task Url} {input : Input Url}
    {worker : Worker Url}
    (moved : taskStep crates input url ticket shared task = some (next, worker))
    (notes : ∀ link rest filtered, task ≠ .inserting (link :: rest) filtered)
    (pushes : ∀ attempt filtered, task ≠ .pushing attempt filtered) :
    (partyLedger crates shared.service (Worker.working url ticket task).filtered popped
      entered).Moved (workerEvent crates shared.service (.working url ticket task) input)
      (partyLedger crates next.service worker.filtered popped
        (entered ++ (Worker.working url ticket task).enters input)) := by
  obtain ⟨event, enters⟩ : workerEvent crates shared.service (.working url ticket task) input =
    .idle ∧ _ := Task.idle notes pushes
  rw [event, enters, List.append_nil, (taskStep_moved moved).filtered_eq notes pushes]
  exact moved_idle (taskStep_seenUrls moved notes) ((taskStep_moved moved).queue_eq pushes)

theorem taskStep_ledger (exact : crates.FilterExact) {url : Url} {ticket : Nat} {task : Task Url}
    {input : Input Url} {worker : Worker Url}
    (moved : taskStep crates input url ticket shared task = some (next, worker)) :
    (partyLedger crates shared.service (Worker.working url ticket task).filtered popped
      entered).Moved (workerEvent crates shared.service (.working url ticket task) input)
      (partyLedger crates next.service worker.filtered popped
        (entered ++ (Worker.working url ticket task).enters input)) := by
  cases task with
  | inserting links filtered =>
    cases links with
    | nil => exact taskStep_idle moved nofun nofun
    | cons link rest =>
      have enters : (Worker.working url ticket (.inserting (link :: rest) filtered)).enters input =
        [] := rfl
      rw [enters, List.append_nil]
      exact insertTask_ledger exact moved
  | pushing attempt filtered =>
    cases input with
    | redis call =>
      obtain ⟨rfl, rfl⟩ := Prod.mk.inj (Option.some.inj moved)
      have left : Worker.filtered (
          if call = .answered then .working url ticket (.adding filtered.length)
          else if attempt = pushAttempts then .dropping true
          else .working url ticket (.pushing (attempt + 1) filtered)) =
          if call = .answered || decide (attempt = pushAttempts) then [] else filtered := by
        by_cases answered : call = .answered
        · simp [answered, Worker.filtered]
        · by_cases last : attempt = pushAttempts <;> simp [answered, last, Worker.filtered]
      rw [left]
      exact moved_push _ call
    | _ => cases moved
  | _ => exact taskStep_idle moved nofun nofun

/-- The front of the queue is popped. -/
theorem moved_pop {service : StorageService Url} {texts left : List String}
    (waiting : service.queue.waiting = texts ++ left) :
    (partyLedger crates service [] popped entered).Moved (.pop (urlsOf crates texts))
      (partyLedger crates { service with queue := ⟨left, service.queue.pushed⟩ } []
        (popped ++ texts) entered) := by
  have front : (partyLedger crates service [] popped entered).waiting =
      urlsOf crates texts + urlsOf crates left := by
    rw [Multiset.coe_add, ← urlsOf_append, ← waiting]
    rfl
  have after : partyLedger crates { service with queue := ⟨left, service.queue.pushed⟩ } []
      (popped ++ texts) entered =
        { partyLedger crates service [] popped entered with
          waiting := urlsOf crates left
          popped := urlsOf crates popped + urlsOf crates texts } := by
    simp only [partyLedger, urlsOf_append, Multiset.coe_add]
  rw [after]
  exact .popped front

theorem moved_requeue {service : StorageService Url} (texts : List String) (call : Call) :
    (partyLedger crates service [] popped entered).Moved (.requeue (urlsOf crates (call.effect texts)))
      (partyLedger crates (pushTasks service texts call) [] popped entered) := by
  have after : partyLedger crates (pushTasks service texts call) [] popped entered =
      { partyLedger crates service [] popped entered with
        waiting := urlsOf crates service.queue.waiting + urlsOf crates (call.effect texts) } := by
    by_cases failed : call = .failed
    · subst failed
      have nothing : (urlsOf crates (Call.effect .failed texts) : Multiset Url) = 0 := rfl
      rw [nothing, add_zero]
      rfl
    · simp only [partyLedger, pushTasks, Call.effect, if_neg failed, TaskQueue.pushBulk,
        urlsOf_append, Multiset.coe_add]
  rw [after]
  exact .requeued

/-- Every step of a worker moves the ledger by its event. -/
theorem workerStep_ledger (exact : crates.FilterExact) {worker after : Worker Url}
    {input : Input Url} (moved : workerStep crates input shared worker = some (next, after)) :
    (partyLedger crates shared.service worker.filtered popped entered).Moved
      (workerEvent crates shared.service worker input)
      (partyLedger crates next.service after.filtered
        (popped ++ worker.pops shared.service.queue input) (entered ++ worker.enters input)) := by
  have idle : ∀ after : Shared Url, after.service = shared.service →
      (partyLedger crates shared.service [] popped entered).Moved .idle
        (partyLedger crates after.service [] (popped ++ []) (entered ++ [])) := by
    intro after same
    rw [List.append_nil, List.append_nil, same]
    exact .idled
  have taken : ∀ {call : Call} {text : String} {rest : List String},
      shared.service.queue.waiting = text :: rest → call ≠ .failed →
      (partyLedger crates shared.service [] popped entered).Moved
        (.pop (urlsOf crates (call.effect (shared.service.queue.waiting.take 1))))
        (partyLedger crates (shared.dequeue rest).service []
          (popped ++ call.effect (shared.service.queue.waiting.take 1)) (entered ++ [])) := by
    intro call text rest waiting performed
    have front : call.effect (shared.service.queue.waiting.take 1) = [text] := by
      rw [waiting]
      exact if_neg performed
    rw [front, List.append_nil]
    exact moved_pop waiting
  have requeued : ∀ (url : Url) (call : Call),
      (partyLedger crates shared.service [] popped entered).Moved
        (.requeue (urlsOf crates (call.effect [crates.url.asStr url])))
        (partyLedger crates (pushTasks shared.service [crates.url.asStr url] call) []
          (popped ++ []) (entered ++ [])) := by
    intro url call
    rw [List.append_nil, List.append_nil]
    exact moved_requeue _ call
  cases workerStep_moved moved with
  | looped goesOn => rcases goesOn with rfl | rfl <;> exact idle _ rfl
  | @popFailed call none =>
    have nothing : call.effect (shared.service.queue.waiting.take 1) = [] := by
      rcases none with rfl | empty
      · rfl
      · rw [empty]
        exact ite_self _
    show Ledger.Moved _ (.pop (urlsOf crates (call.effect _)))
      (partyLedger crates shared.service [] (popped ++ call.effect _) (entered ++ []))
    rw [nothing, List.append_nil entered]
    exact moved_pop rfl
  | popLost waiting => exact taken waiting (by decide)
  | popUnparsed waiting _ => exact taken waiting (by decide)
  | popped waiting _ => exact taken waiting (by decide)
  | stamped _ => exact idle _ rfl
  | strayed _ => exact idle _ rfl
  | granted _ => exact idle _ rfl
  | refused => exact idle _ rfl
  | requeued => exact requeued _ _
  | requeueFailed _ => exact requeued _ _
  | released owed =>
    rcases owed with ⟨rfl, rfl⟩ | ⟨rfl, rfl⟩ | ⟨_, rfl, rfl | rfl⟩ <;> exact idle _ rfl
  | task _ =>
    rw [show (popped ++ Worker.pops _ (.working _ _ _) input) = popped from List.append_nil _]
    exact taskStep_ledger exact moved

end Workers

/-! ### The steps of the storage service -/

section Service

variable {crates : Crates Url} {service next : StorageService Url} {action : ServiceAction Url}

/-- The storage service goes on, and only workers and the launch ask it to insert URLs. -/
def staysUp : ServiceAction Url → Bool
  | .start _ | .kill | .lookup (.insertUrl _) => false
  | _ => true

theorem Consumer.enters_eq_nil {consumer : Consumer} (quiet : ∀ call, action ≠ .pushSitemap call) :
    consumer.enters action = [] := by
  cases action with
  | pushSitemap call => exact absurd rfl (quiet call)
  | _ => cases consumer <;> rfl

theorem Consumer.filtered_next (batch : List (StreamEntry × Nat)) :
    (Consumer.next batch).filtered = [] := by
  cases batch <;> rfl

theorem Consumer.filtered_of_idle {consumer : Consumer} (idle : consumer.inHand = []) :
    consumer.filtered = [] := by
  cases consumer with
  | pushing id sitemap attempt sitemaps batch => cases idle
  | _ => rfl

variable [DecidableEq Url] {popped entered : List String}

theorem offer_ledger (exact : crates.FilterExact) (moved : service.offer crates = some next) :
    (partyLedger crates service service.consumer.filtered popped entered).Moved
      (serviceEvent crates service .offer)
      (partyLedger crates next next.consumer.filtered popped entered) := by
  obtain ⟨id, sitemap, sitemaps, batch, offering, outcome⟩ := offer_eq_some crates moved
  simp only [serviceEvent, offering]
  rcases outcome with ⟨reason, unparsed, rfl⟩ | ⟨url, parsed, rfl⟩
  · rw [unparsed]
    exact moved_idle rfl rfl
  · simp only [parsed]
    have found : (partyLedger crates service [] popped entered).Moved _ _ :=
      moved_found exact (crates.url.parse_asStr url)
    cases seen : (service.storage.insertUrlInSeenUrls crates url).1 <;>
      (rw [seen] at found; exact found)

theorem pushSitemap_ledger {call : Call} (moved : service.pushSitemap call = some next) :
    (partyLedger crates service service.consumer.filtered popped entered).Moved
      (serviceEvent crates service (.pushSitemap call))
      (partyLedger crates next next.consumer.filtered popped
        (entered ++ service.consumer.enters (.pushSitemap call : ServiceAction Url))) := by
  unfold StorageService.pushSitemap at moved
  split at moved
  · rename_i id sitemap attempt sitemaps batch pushing
    have pushed : (partyLedger crates service [sitemap] popped entered).Moved
        (pushEvent crates [sitemap] (attempt = pushAttempts) call) _ := moved_push _ call
    have retried : Consumer.filtered (if attempt = pushAttempts then .offering id sitemaps batch
        else .pushing id sitemap (attempt + 1) sitemaps batch) =
          if decide (attempt = pushAttempts) = true then [] else [sitemap] := by
      split <;> simp_all [Consumer.filtered]
    simp only [serviceEvent, pushing]
    cases call with
    | answered =>
      cases moved
      exact pushed
    | lost =>
      cases moved
      rw [retried]
      exact pushed
    | failed =>
      cases moved
      rw [retried]
      exact pushed
  · cases moved

/-- Every step of a storage service that goes on moves the ledger by its event. -/
theorem serviceStep_ledger (exact : crates.FilterExact)
    (moved : serviceStep crates action service = some next) (up : staysUp action = true) :
    (partyLedger crates service service.consumer.filtered popped entered).Moved
      (serviceEvent crates service action)
      (partyLedger crates next next.consumer.filtered popped
        (entered ++ service.consumer.enters action)) := by
  have idle : ∀ after : StorageService Url,
      after.storage.seenUrls = service.storage.seenUrls → after.queue = service.queue →
      after.consumer.filtered = service.consumer.filtered →
      (∀ call, action ≠ .pushSitemap call) →
      (partyLedger crates service service.consumer.filtered popped entered).Moved .idle
        (partyLedger crates after after.consumer.filtered popped
          (entered ++ service.consumer.enters action)) := by
    intro after seen queue hand quiet
    rw [Consumer.enters_eq_nil quiet, List.append_nil, hand]
    exact moved_idle seen queue
  have emptied : ∀ {before after : Consumer}, service.consumer = before → before.filtered = [] →
      after.filtered = [] → after.filtered = service.consumer.filtered :=
    fun stands before after => after.trans (stands ▸ before.symm)
  cases serviceStep_moved crates moved with
  | published entry => exact idle _ rfl rfl rfl nofun
  | started _ _ => cases up
  | groupCreated starting _ idles =>
    exact idle _ rfl rfl (emptied starting rfl (Consumer.filtered_of_idle idles)) nofun
  | groupFailed starting => exact idle _ rfl rfl (emptied starting rfl rfl) nofun
  | readAnswered reading =>
    exact idle _ rfl rfl (emptied reading rfl (Consumer.filtered_next _)) nofun
  | readLost reading => exact idle _ rfl rfl rfl nofun
  | readFailed => exact idle _ rfl rfl rfl nofun
  | processed processing _ =>
    exact idle _ (processStreamEntry_seenUrls _ _ _) rfl (emptied processing rfl rfl) nofun
  | dropped processing _ goesOn =>
    refine idle _ (processStreamEntry_seenUrls _ _ _) rfl (emptied processing rfl ?_) nofun
    rcases goesOn with rfl | rfl
    · rfl
    · exact Consumer.filtered_next _
  | offered _ _ _ =>
    have none : service.consumer.enters (.offer : ServiceAction Url) = [] :=
      Consumer.enters_eq_nil nofun
    rw [none, List.append_nil]
    exact offer_ledger exact moved
  | pushed _ _ _ => exact pushSitemap_ledger moved
  | pushFailed _ _ => exact pushSitemap_ledger moved
  | acked acking _ => exact idle _ rfl rfl (emptied acking rfl (Consumer.filtered_next _)) nofun
  | ackFailed acking => exact idle _ rfl rfl (emptied acking rfl (Consumer.filtered_next _)) nofun
  | shutDown reading => exact idle _ rfl rfl (emptied reading rfl rfl) nofun
  | killed => cases up
  | looked request =>
    refine idle _ ?_ rfl rfl nofun
    cases request with
    | check url faults => exact checkIfUrlAllowed_seenUrls _ _ _
    | delay domain faults => exact cachedOrStored_seenUrls _ _ _
    | insertUrl url => cases up
    | evict _ => rfl

end Service

/-! ### The steps of the launch -/

section Launching

variable {crates : Crates Url} {shared next : Shared Url} {launch after : Launch Url}
  {input : Input Url}

theorem Launch.filtered_parseStart (startUrl : String) :
    (parseStart crates startUrl).filtered = [] := by
  unfold parseStart
  split <;> rfl

theorem Launch.filtered_afterIsEmpty (startUrl seed : Option String) (queue : TaskQueue) :
    (afterIsEmpty crates startUrl seed queue).filtered = [] := by
  unfold afterIsEmpty
  split
  · exact Launch.filtered_parseStart _
  · rfl
  · split <;> rfl
  · rfl

/-- A text that is no URL is an error of the server, which notes nothing. -/
theorem rpc_serveInsert_unparsed {service after : StorageService Url} {text : String}
    {reason : ParseError} {answer : Outcome Bool} (unparsed : crates.url.parse text = .error reason)
    (called : rpc service input (serveInsert crates text) = some (answer, after)) :
    after = service := by
  obtain ⟨faults, call, rfl, same | served, _⟩ := rpc_eq_some called
  · exact same
  · rw [served, serveInsert, unparsed]

variable [DecidableEq Url] {popped entered : List String}

/-- The start URL enters the queue without having been in hand. -/
theorem pushStartStep_ledger {url : Url}
    (moved : pushStartStep crates input url shared = some (next, after)) :
    (partyLedger crates shared.service [] popped entered).Moved
      (launchEvent crates (.pushing url) input)
      (partyLedger crates next.service after.filtered popped
        (entered ++ (Launch.pushing url).enters crates input)) := by
  cases input with
  | redis call =>
    obtain ⟨rfl, rfl⟩ := Prod.mk.inj (Option.some.inj moved)
    have hand : Launch.filtered (if call = .answered then .marking url else .ended) = [] := by
      split <;> rfl
    rw [hand]
    by_cases failed : call = .failed
    · subst failed
      have none : (entered ++ (Launch.pushing url).enters crates (.redis .failed)) = entered :=
        List.append_nil _
      rw [none]
      exact .idled
    · have all : (Launch.pushing url).enters crates (.redis call) = [crates.url.asStr url] :=
        if_neg failed
      have event : launchEvent crates (.pushing url) (.redis call) = .enter {url} false :=
        if_neg failed
      rw [event, all, partyLedger_push failed, urlsOf_singleton (crates.url.parse_asStr url)]
      exact .enteredEarly
  | _ => cases moved

theorem insertSeedStep_ledger (exact : crates.FilterExact) {text : String}
    {left filtered : List String}
    (moved : insertSeedStep crates input text left filtered shared = some (next, after)) :
    (partyLedger crates shared.service filtered popped entered).Moved
      (launchEvent crates (.seeding (text :: left) filtered) input)
      (partyLedger crates next.service after.filtered popped entered) := by
  obtain ⟨⟨answer, service⟩, called, made⟩ := Option.map_eq_some_iff.mp moved
  obtain ⟨rfl, rfl⟩ := Prod.mk.inj made
  cases parsed : crates.url.parse text with
  | ok url =>
    obtain ⟨faults, call, rfl, rfl, _⟩ := rpc_serveInsert parsed called
    simp only [launchEvent, parsed]
    exact moved_taken exact _ parsed
  | error reason =>
    obtain rfl := rpc_serveInsert_unparsed parsed called
    obtain ⟨faults, call, rfl, _⟩ := rpc_eq_some called
    have hand : (urlsOf crates (filtered ++ [text]) : List Url) = urlsOf crates filtered := by
      rw [urlsOf_append, urlsOf_singleton_error parsed, List.append_nil]
    simp only [launchEvent, parsed]
    show Ledger.Moved _ _ (partyLedger crates shared.service (filtered ++ [text]) popped entered)
    rw [show partyLedger crates shared.service (filtered ++ [text]) popped entered =
      partyLedger crates shared.service filtered popped entered by rw [partyLedger, hand]; rfl]
    exact .idled

theorem pushSeedsStep_ledger {filtered : List String}
    (moved : pushSeedsStep input filtered shared = some (next, after)) :
    (partyLedger crates shared.service filtered popped entered).Moved
      (launchEvent crates (.seeding [] filtered) input)
      (partyLedger crates next.service after.filtered popped
        (entered ++ (Launch.seeding [] filtered : Launch Url).enters crates input)) := by
  cases filtered with
  | nil =>
    cases input with
    | proceed =>
      cases moved
      rw [show (Launch.seeding [] [] : Launch Url).enters crates .proceed = [] from rfl,
        List.append_nil]
      exact .idled
    | _ => cases moved
  | cons text rest =>
    cases input with
    | redis call =>
      obtain ⟨rfl, rfl⟩ := Prod.mk.inj (Option.some.inj moved)
      have hand : Launch.filtered (if call = .answered then (.running : Launch Url) else .ended) =
          if call = .answered || true then [] else text :: rest := by
        rw [Bool.or_true, if_pos rfl]
        split <;> rfl
      rw [hand]
      exact moved_push true call
    | _ => cases moved

/-- Every step of the launch moves the ledger by its event. -/
theorem launchStep_ledger (exact : crates.FilterExact)
    (moved : launchStep crates input shared launch = some (next, after)) :
    (partyLedger crates shared.service launch.filtered popped entered).Moved
      (launchEvent crates launch input)
      (partyLedger crates next.service after.filtered popped
        (entered ++ launch.enters crates input)) := by
  have idle : ∀ after : StorageService Url, after = shared.service →
      (partyLedger crates shared.service [] popped entered).Moved .idle
        (partyLedger crates after [] popped (entered ++ [])) := by
    rintro _ rfl
    rw [List.append_nil]
    exact .idled
  cases launch with
  | checking startUrl seed =>
    cases input with
    | redis call =>
      obtain ⟨rfl, rfl⟩ := Prod.mk.inj (Option.some.inj moved)
      have hand : Launch.filtered (if call = .answered then
          afterIsEmpty crates startUrl seed shared.service.queue else .ended) = [] := by
        split
        · exact Launch.filtered_afterIsEmpty _ _ _
        · rfl
      rw [hand]
      exact idle _ rfl
    | _ => cases moved
  | cleaning startUrl =>
    cases input with
    | redis call =>
      obtain ⟨rfl, rfl⟩ := Prod.mk.inj (Option.some.inj moved)
      have hand : Launch.filtered (if call = .answered then parseStart crates startUrl
          else .ended) = [] := by
        split
        · exact Launch.filtered_parseStart _
        · rfl
      rw [hand]
      have none : (entered ++ (Launch.cleaning startUrl).enters crates (.redis call)) = entered :=
        List.append_nil _
      rw [none]
      cases call with
      | failed => exact .idled
      | answered => exact .wiped
      | lost => exact .wiped
    | _ => cases moved
  | pushing url => exact pushStartStep_ledger moved
  | marking url =>
    obtain ⟨⟨answer, service⟩, called, made⟩ := Option.map_eq_some_iff.mp moved
    obtain ⟨faults, call, rfl, rfl, _⟩ := rpc_serveInsert (crates.url.parse_asStr url) called
    obtain ⟨rfl, rfl⟩ := Prod.mk.inj made
    have noted : (partyLedger crates shared.service [] popped entered).Moved
        (.note url (call ≠ .failed) false) (partyLedger crates
          (shared.service.noting crates url (call ≠ .failed)) [] popped (entered ++ [])) := by
      rw [List.append_nil]
      exact moved_noted exact _
    cases answer <;> exact noted
  | seeding left filtered =>
    cases left with
    | nil => exact pushSeedsStep_ledger moved
    | cons text left =>
      rw [show (Launch.seeding (text :: left) filtered : Launch Url).enters crates input = [] from
        rfl, List.append_nil]
      exact insertSeedStep_ledger exact moved
  | counting =>
    cases input with
    | redis call =>
      obtain ⟨rfl, rfl⟩ := Prod.mk.inj (Option.some.inj moved)
      have hand : Launch.filtered (if call = .answered then (.running : Launch Url) else .ended) =
          [] := by
        split <;> rfl
      rw [hand]
      exact idle _ rfl
    | _ => cases moved
  | running => cases moved
  | ended => cases moved

end Launching

end PoliteCrawler
