/-
This file proves that the limiter knows the stored delays on the way that finds
a domain unknown.

A worker gives the limiter the delay of a robots.txt before it publishes it. So
in a crawl that starts with no domain stored and no domain event to come, in
which nobody else publishes a domain, every delay that is stored has been
learned, as long as a site does not change its robots.txt: each delay that is in
the table, in the stream or in the hands of a worker that publishes it is in the
limiter's entry already.
-/

import PoliteCrawler.CrawlDelay
import PoliteCrawler.PendingEvents

namespace PoliteCrawler

variable {Url : Type}

/-! ### What is learned -/

section Learned

variable (crates : Crates Url) (delays : String → Duration)

/-- The limiter has the delay of the site. -/
def DomainRateLimiter.Learned (limiter : DomainRateLimiter) (domain : String) : Prop :=
  ∃ state, limiter.map domain = some state ∧ state.delay = delays domain

/-- The data has the delay of its site, and the limiter has learned it. -/
def LearnedFor (limiter : DomainRateLimiter) (domain : String) (delay : F32) : Prop :=
  delay.toDuration = some (delays domain) ∧ limiter.Learned delays domain

/-- A domain event of the entry has a delay that was learned. -/
def LearnedEntry (limiter : DomainRateLimiter) (entry : StreamEntry) : Prop :=
  ∀ data, eventOf crates entry = some (.parsedDomain data) →
    LearnedFor delays limiter data.domainString data.delay

/-- Every delay in the table was learned. -/
def LearnedRows (limiter : DomainRateLimiter) (db : CrawlerDb) : Prop :=
  ∀ domain delay, storedDelay db domain = some delay →
    delay = delays domain ∧ limiter.Learned delays domain

/-- The worker has the delay of the site, and the limiter has it before the worker publishes it. -/
def Worker.Learned (limiter : DomainRateLimiter) : Worker Url → Prop
  | .working _ _ (.updatingDelay data) =>
    ∀ delay, data.delay.toDuration = some delay → delay = delays data.domainString
  | .working _ _ (.savingDomain data) => LearnedFor delays limiter data.domainString data.delay
  | _ => True

/-- Every delay that is stored or to be stored was learned. -/
structure StorageService.Learned (limiter : DomainRateLimiter) (service : StorageService Url) :
    Prop where
  rows : LearnedRows delays limiter service.storage.db
  pending : ∀ entry ∈ service.pending, LearnedEntry crates delays limiter entry

structure Crawler.Learned {n : Nat} (crawler : Crawler Url n) : Prop where
  service : crawler.shared.service.Learned crates delays crawler.shared.limiter
  workers : ∀ id, (crawler.workers id).Learned delays crawler.shared.limiter

/-- A domain event reads back with its delay, and a page event is not read as one. -/
structure DelaysReadBack : Prop where
  domain : ∀ data read : DomainDataSaveData,
    crates.fromJson (crates.toJson (.parsedDomain data)) = some (.parsedDomain read) →
      read.domainString = data.domainString ∧ read.delay.toDuration = data.delay.toDuration
  page : ∀ page read, crates.fromJson (crates.toJson (.parsedPage page)) ≠
    some (.parsedDomain read)

/-- A site's robots.txt has the delay of the site whenever it is fetched, and only the workers
publish domains. -/
def KeepsDelays {n : Nat} : CrawlerAction Url n → Prop
  | .worker _ (.web web _) => ∀ url data delay,
    getDomainData crates web url defaultAgentName = .ok data →
      data.delay.toDuration = some delay → delay = delays data.domainString
  | .service (.publish entry) => ∀ data, eventOf crates entry ≠ some (.parsedDomain data)
  | _ => True

end Learned

/-! ### The limiter -/

section Limiter

variable {delays : String → Duration} {limiter : DomainRateLimiter}

/-- The limiter keeps what it has learned. -/
def DomainRateLimiter.Keeps (delays : String → Duration) (before after : DomainRateLimiter) :
    Prop :=
  ∀ domain, before.Learned delays domain → after.Learned delays domain

theorem DomainRateLimiter.Keeps.refl (limiter : DomainRateLimiter) : limiter.Keeps delays limiter :=
  fun _ learned => learned

/-- A change of one entry that has, or keeps, the delay of its site. -/
theorem DomainRateLimiter.keeps_setEntry {domain : String} {after : DomainState}
    (kept : ∀ state, limiter.map domain = some state → state.delay = delays domain →
      after.delay = delays domain) : limiter.Keeps delays (limiter.setEntry domain after) := by
  rintro other ⟨state, entered, same⟩
  by_cases changed : other = domain
  · subst changed
    exact ⟨after, limiter.map_setEntry_self other after, kept state entered same⟩
  · exact ⟨state, (limiter.map_setEntry_of_ne domain after changed).trans entered, same⟩

/-- An access leaves the delay of the entry as it is. -/
theorem DomainRateLimiter.keeps_access {domain : String} {stamp : Instant} {after : DomainState}
    (slow : after.delay = (limiter.entry domain stamp).delay) :
    limiter.Keeps delays (limiter.setEntry domain after) := by
  refine limiter.keeps_setEntry fun state entered same => ?_
  rw [slow, DomainRateLimiter.entry_of_some entered]
  exact same

/-- A delay of the site that is given to the limiter is learned, and nothing else is forgotten. -/
theorem DomainRateLimiter.learned_updateDelay (limiter : DomainRateLimiter)
    (delays : String → Duration) (domain : String) (now : Instant) :
    limiter.Keeps delays (limiter.updateDelay domain (delays domain) now) ∧
      (limiter.updateDelay domain (delays domain) now).Learned delays domain := by
  unfold DomainRateLimiter.updateDelay
  split
  · exact ⟨limiter.keeps_setEntry fun _ _ _ => rfl, _, limiter.map_setEntry_self domain _, rfl⟩
  · exact ⟨limiter.keeps_setEntry fun _ _ _ => rfl, _, limiter.map_setEntry_self domain _, rfl⟩

variable {after : DomainRateLimiter}

theorem LearnedFor.keeps {domain : String} {delay : F32}
    (learned : LearnedFor delays limiter domain delay) (keeps : limiter.Keeps delays after) :
    LearnedFor delays after domain delay :=
  ⟨learned.1, keeps domain learned.2⟩

theorem Worker.Learned.keeps {worker : Worker Url} (learned : worker.Learned delays limiter)
    (keeps : limiter.Keeps delays after) : worker.Learned delays after := by
  cases worker with
  | working url ticket task =>
    cases task with
    | updatingDelay data => exact learned
    | savingDomain data => exact LearnedFor.keeps learned keeps
    | _ => trivial
  | _ => trivial

theorem StorageService.Learned.keeps {crates : Crates Url} {service : StorageService Url}
    (learned : service.Learned crates delays limiter) (keeps : limiter.Keeps delays after) :
    service.Learned crates delays after where
  rows domain delay stored :=
    ⟨(learned.rows domain delay stored).1, keeps domain (learned.rows domain delay stored).2⟩
  pending entry member data decoded := (learned.pending entry member data decoded).keeps keeps

end Limiter

/-! ### Steps around the storage service -/

section Around

variable {crates : Crates Url} {delays : String → Duration}
  {limiter : DomainRateLimiter} {service next : StorageService Url}

/-- A step that stores nothing and adds nothing to the entries to come. -/
theorem StorageService.Learned.fewer (learned : service.Learned crates delays limiter)
    (db : next.storage.db = service.storage.db) (pending : next.pending ⊆ service.pending) :
    next.Learned crates delays limiter where
  rows := by
    rw [db]
    exact learned.rows
  pending entry member := learned.pending entry (pending member)

theorem LookedUp.learned (looked : LookedUp crates service next)
    (learned : service.Learned crates delays limiter) : next.Learned crates delays limiter := by
  refine learned.fewer looked.state.1 ?_
  rcases looked with rfl | ⟨request, rfl⟩
  · exact List.Subset.refl _
  · exact List.Subset.refl _

theorem StorageService.Learned.pushTasks (learned : service.Learned crates delays limiter)
    (texts : List String) (call : Call) :
    (PoliteCrawler.pushTasks service texts call).Learned crates delays limiter := by
  unfold PoliteCrawler.pushTasks
  split
  · exact learned
  · exact learned.fewer rfl (List.Subset.refl _)

theorem StorageService.Learned.append (learned : service.Learned crates delays limiter)
    {entry : StreamEntry} (found : LearnedEntry crates delays limiter entry) :
    StorageService.Learned crates delays limiter
      { service with log := service.log.append entry } := by
  refine ⟨learned.rows, fun other member => ?_⟩
  rcases service.mem_pending_append member with before | rfl
  · exact learned.pending other before
  · exact found

theorem StorageService.Learned.publishEvent (learned : service.Learned crates delays limiter)
    {event : ParsedData} (found : LearnedEntry crates delays limiter (some (crates.toJson event)))
    (call : Call) :
    (PoliteCrawler.publishEvent crates service event call).Learned crates delays limiter := by
  unfold PoliteCrawler.publishEvent
  split
  · exact learned
  · exact learned.append found

end Around

/-! ### The storage service -/

section Service

variable {crates : Crates Url} {delays : String → Duration} {limiter : DomainRateLimiter}

/-- The delay that is stored with a domain is that of the data. -/
theorem LearnedRows.upsertDomain {db : CrawlerDb} (rows : LearnedRows delays limiter db)
    {data : DomainDataSaveData} (learned : LearnedFor delays limiter data.domainString data.delay) :
    LearnedRows delays limiter (db.upsertDomain data) := by
  intro domain delay stored
  by_cases same : domain = data.domainString
  · subst same
    have number : data.delay.isNan = false := by
      by_contra nan
      have missing := F32.toDuration_of_isNan (by simpa using nan)
      rw [learned.1] at missing
      cases missing
    have column :
        ((db.domainRow data (db.domains.find? data.domainString)).delay.getD 0).toDuration =
          data.delay.toDuration := CrawlerDb.toDuration_boundDelay number
    rw [storedDelay, CrawlerDb.find?_upsertDomain_self, Option.bind_some, column,
      learned.1] at stored
    exact ⟨(Option.some.inj stored).symm, learned.2⟩
  · rw [storedDelay, CrawlerDb.find?_upsertDomain_of_ne db data same] at stored
    exact rows domain delay stored

/-- Saving an event of a learned delay stores a learned delay. -/
theorem Saved.learned {before after : CrawlerStorage Url} {faults : DbFaults} {event : ParsedData}
    {result : Outcome (List String)} (saved : Saved crates before faults event result after)
    (rows : LearnedRows delays limiter before.db)
    (learned : ∀ data, event = .parsedDomain data →
      LearnedFor delays limiter data.domainString data.delay) :
    LearnedRows delays limiter after.db := by
  cases saved with
  | domainUncached _ _ | domainSaved _ _ => exact rows.upsertDomain (learned _ rfl)
  | _ => exact rows

theorem processStreamEntry_learned {storage : CrawlerStorage Url} {faults : DbFaults}
    {entry : StreamEntry} (rows : LearnedRows delays limiter storage.db)
    (learned : LearnedEntry crates delays limiter entry) :
    LearnedRows delays limiter (processStreamEntry crates storage faults entry).2.db := by
  cases decoded : eventOf crates entry with
  | none =>
    rw [(processStreamEntry_of_eventOf_none decoded storage faults).1]
    exact rows
  | some event =>
    rw [processStreamEntry_of_eventOf decoded]
    refine (saveParsedData_saved crates storage faults event).learned rows ?_
    rintro data rfl
    exact learned data decoded

/-- The service stores and adds learned delays only. -/
theorem ServiceMoved.learned {service next : StorageService Url} {action : ServiceAction Url}
    (moved : ServiceMoved crates service action next)
    (published : ∀ entry, action = .publish entry →
      ∀ data, eventOf crates entry ≠ some (.parsedDomain data))
    (learned : service.Learned crates delays limiter) : next.Learned crates delays limiter := by
  have added : (∀ entry, action ≠ .publish entry) → next.pending ⊆ service.pending :=
    moved.pending_subset
  cases moved with
  | published entry =>
    exact learned.append fun data decoded => absurd decoded (published entry rfl data)
  | processed processing _ | dropped processing _ _ =>
    refine ⟨processStreamEntry_learned learned.rows (learned.pending _ ?_),
      fun entry member => learned.pending entry (added (fun _ same => by cases same) member)⟩
    rw [StorageService.pending_of_processing processing]
    exact List.mem_cons_self
  | offered _ noted _ =>
    refine learned.fewer ?_ (added fun _ same => by cases same)
    rcases noted with rfl | ⟨url, rfl⟩
    · rfl
    · obtain ⟨_, _, _, state⟩ := afterLookup_state crates service.storage (.insertUrl url)
      rw [state]
  | looked request =>
    refine learned.fewer ?_ (added fun _ same => by cases same)
    obtain ⟨_, _, _, state⟩ := afterLookup_state crates service.storage request
    rw [state]
  | _ => exact learned.fewer rfl (added fun _ same => by cases same)

end Service

/-! ### The workers -/

section Workers

variable [DecidableEq Url] {crates : Crates Url} {delays : String → Duration}
  {shared next : Shared Url} {input : Input Url}

/-- A task gives the limiter the delay it has fetched, and publishes it after that. -/
theorem TaskMoved.learned {url : Url} {ticket : Nat} {task : Task Url} {worker : Worker Url}
    (moved : TaskMoved crates url ticket shared task input next worker)
    (readBack : DelaysReadBack crates)
    (answers : ∀ web keywordsFile, input = .web web keywordsFile → ∀ url data delay,
      getDomainData crates web url defaultAgentName = .ok data →
        data.delay.toDuration = some delay → delay = delays data.domainString)
    (held : (Worker.working url ticket task).Learned delays shared.limiter)
    (service : shared.service.Learned crates delays shared.limiter) :
    shared.limiter.Keeps delays next.limiter ∧ worker.Learned delays next.limiter ∧
      next.service.Learned crates delays next.limiter := by
  have same : shared.limiter.Keeps delays shared.limiter := .refl _
  cases moved with
  | robotsFetched got =>
    exact ⟨same, fun delay converts => answers _ _ rfl url _ delay got converts, service⟩
  | delayUpdated converts =>
    obtain rfl := held _ converts
    obtain ⟨keeps, learned⟩ := shared.limiter.learned_updateDelay delays _ shared.clock
    exact ⟨keeps, ⟨converts, learned⟩, service.keeps keeps⟩
  | @domainSaved data call _ goesOn =>
    have entry : LearnedEntry crates delays shared.limiter
        (some (crates.toJson (.parsedDomain (DomainDataSaveData.fromDomainData data)))) := by
      intro read decoded
      obtain ⟨domain, delay⟩ := readBack.domain _ read decoded
      have learned : LearnedFor delays shared.limiter data.domainString data.delay := held
      rw [domain]
      exact ⟨delay.trans learned.1, learned.2⟩
    refine ⟨same, ?_, service.publishEvent entry call⟩
    rcases goesOn with rfl | ⟨_, rfl⟩ <;> trivial
  | @slept domain stamp =>
    have keeps : shared.limiter.Keeps delays (shared.limiter.awaitAcquiring domain stamp).2 :=
      shared.limiter.keeps_access rfl
    exact ⟨keeps, trivial, service.keeps keeps⟩
  | @pageSaved page _ call _ _ goesOn =>
    refine ⟨same, ?_, service.publishEvent (fun read decoded => ?_) call⟩
    · rcases goesOn with rfl | ⟨_, rfl⟩ <;> trivial
    · exact absurd decoded (readBack.page _ read)
  | checkFailed looked _ | checkedStray looked _ | checkedUnknown looked _
  | checkedDisallowed looked | checkedSitemap looked | checkedPage looked _
  | linkInserted looked _ =>
    exact ⟨same, trivial, looked.learned service⟩
  | sitemapDelayAsked looked goesOn | delayAsked looked goesOn =>
    refine ⟨same, ?_, looked.learned service⟩
    rcases goesOn with rfl | ⟨_, rfl⟩ <;> trivial
  | pageFetched _ goesOn =>
    refine ⟨same, ?_, service⟩
    rcases goesOn with rfl | rfl <;> trivial
  | pushed => exact ⟨same, trivial, service.pushTasks _ .answered⟩
  | pushFailed _ goesOn =>
    refine ⟨same, ?_, service.pushTasks _ _⟩
    rcases goesOn with ⟨_, rfl⟩ | rfl <;> trivial
  | _ => exact ⟨same, trivial, service⟩

theorem WorkerMoved.learned {worker after : Worker Url}
    (moved : WorkerMoved crates shared worker input next after)
    (readBack : DelaysReadBack crates)
    (answers : ∀ web keywordsFile, input = .web web keywordsFile → ∀ url data delay,
      getDomainData crates web url defaultAgentName = .ok data →
        data.delay.toDuration = some delay → delay = delays data.domainString)
    (held : worker.Learned delays shared.limiter)
    (service : shared.service.Learned crates delays shared.limiter) :
    shared.limiter.Keeps delays next.limiter ∧ after.Learned delays next.limiter ∧
      next.service.Learned crates delays next.limiter := by
  have same : shared.limiter.Keeps delays shared.limiter := .refl _
  cases moved with
  | looped goesOn => exact ⟨same, by rcases goesOn with rfl | rfl <;> trivial, service⟩
  | popLost _ | popUnparsed _ _ | popped _ _ =>
    exact ⟨same, trivial, service.fewer rfl (List.Subset.refl _)⟩
  | @granted url domain stamp _ =>
    have keeps : shared.limiter.Keeps delays (shared.grant domain stamp).limiter :=
      shared.limiter.keeps_access rfl
    exact ⟨keeps, trivial, service.keeps keeps⟩
  | @refused url domain stamp =>
    have keeps : shared.limiter.Keeps delays
        (shared.limiter.setEntry domain (shared.limiter.entry domain stamp)) :=
      shared.limiter.keeps_access rfl
    exact ⟨keeps, trivial, service.keeps keeps⟩
  | requeued => exact ⟨same, trivial, service.pushTasks _ .answered⟩
  | requeueFailed _ => exact ⟨same, trivial, service.pushTasks _ _⟩
  | released owed =>
    refine ⟨same, ?_, service⟩
    rcases owed with ⟨_, rfl⟩ | ⟨_, rfl⟩ | ⟨_, _, rfl | rfl⟩ <;> trivial
  | task moved => exact moved.learned readBack answers held service
  | _ => exact ⟨same, trivial, service⟩

end Workers

/-! ### Crawls -/

section Crawls

variable [DecidableEq Url] {crates : Crates Url} {delays : String → Duration} {n : Nat}
  {crawler next : Crawler Url n} {action : CrawlerAction Url n}

theorem CrawlerMoved.learned (moved : CrawlerMoved crates crawler action next)
    (readBack : DelaysReadBack crates) (keeps : KeepsDelays crates delays action)
    (learned : crawler.Learned crates delays) : next.Learned crates delays := by
  cases moved with
  | @worker id input shared worker moved =>
    obtain ⟨remembers, held, service⟩ := moved.learned readBack
      (by rintro web keywordsFile rfl; exact keeps) (learned.workers id) learned.service
    exact ⟨service, Transition.forall_update
      (fun other => (learned.workers other).keeps remembers) held⟩
  | service moved =>
    refine ⟨moved.learned ?_ learned.service, learned.workers⟩
    rintro entry rfl
    exact keeps
  | _ => exact ⟨learned.service, learned.workers⟩

omit [DecidableEq Url] in
/-- A limiter that has learned what is stored knows the delay it needs. -/
theorem Crawler.Learned.knowsDelays (learned : crawler.Learned crates delays) :
    knowsDelays crawler action = true := by
  cases action with
  | worker id input =>
    rw [PoliteCrawler.knowsDelays]
    cases crawler.workers id with
    | acquiring url domain stamp =>
      rw [knowsDelay]
      split
      · rename_i state delay entered stored
        obtain ⟨rfl, state', entered', same⟩ := learned.service.rows domain delay stored
        obtain rfl := Option.some.inj (entered'.symm.trans entered)
        exact decide_eq_true same.ge
      · rfl
    | _ => rfl
  | _ => rfl

omit [DecidableEq Url] in
/-- With no domain stored and nothing to come there is nothing to be learned. -/
theorem learned_begin {clock : Instant} {started : StorageService Url × Nat}
    (unknown : started.1.storage.db.domains.rows = []) (nothing : started.1.pending = []) :
    (Crawler.begin clock started : Crawler Url n).Learned crates delays := by
  refine ⟨⟨fun domain delay stored => ?_, fun entry member => ?_⟩, fun _ => trivial⟩
  · obtain ⟨row, found, _⟩ := Option.bind_eq_some_iff.mp stored
    have listed : row ∈ started.1.storage.db.domains.rows :=
      (started.1.storage.db.domains.find?_eq_some_iff.mp found).1
    rw [unknown] at listed
    cases listed
  · have listed : entry ∈ started.1.pending := member
    rw [nothing] at listed
    cases listed

/-- A crawl that finds its domains unknown knows every delay that it needs: no domain is stored or
to come at its start, no site changes its delay, and only the workers publish domains. -/
theorem knowsDelays_of_learned {limit : Option (BitVec 64)} {clock : Instant}
    {started : StorageService Url × Nat} {permitted : Crawler Url n → CrawlerAction Url n → Prop}
    (readBack : DelaysReadBack crates) (unknown : started.1.storage.db.domains.rows = [])
    (nothing : started.1.pending = [])
    (reached : Transition.ReachesWith (crawlerStep crates limit)
      (fun crawler action => KeepsDelays crates delays action ∧ permitted crawler action)
      (Crawler.begin clock started) crawler) :
    Transition.ReachesWith (crawlerStep crates limit)
      (fun crawler action => knowsDelays crawler action = true ∧ permitted crawler action)
      (Crawler.begin clock started) crawler :=
  reached.mono_of_invariant (learned_begin unknown nothing)
    (fun _ _ _ learned keeps moved =>
      (crawlerStep_moved crates moved).learned readBack keeps.1 learned)
    fun _ _ learned keeps => ⟨learned.knowsDelays, keeps.2⟩

/-- The grants for page downloads keep the stored delay in a crawl that finds its domains unknown,
as long as no wait turns a last access back. -/
theorem learned_delay_kept {limit : Option (BitVec 64)} {clock : Instant}
    {started : StorageService Url × Nat} (readBack : DelaysReadBack crates)
    (unknown : started.1.storage.db.domains.rows = []) (nothing : started.1.pending = [])
    (reached : Transition.ReachesWith (crawlerStep crates limit)
      (fun crawler action => KeepsDelays crates delays action ∧ wakeInOrder crawler action = true)
      (Crawler.begin clock started) crawler) : crawler.DelayKept := by
  have known := knowsDelays_of_learned readBack unknown nothing reached
  have paced := known.invariant (paced_nil (DomainRateLimiter.new (10 ^ 9)))
    fun before action after paced knows moved =>
      (crawlerStep_moved crates moved).paced paced knows.1 knows.2
  exact Paced.delayKept paced

end Crawls

/-! ### The sample web -/

/-- The first site asks for five seconds. -/
def sampleDelays (domain : String) : Duration := if domain = "a.example" then 5 * 10 ^ 9 else 0

/-- An event of the sample web is read as itself, or not at all. -/
theorem sampleJson_readsBack {event read : ParsedData}
    (decoded : sampleCrates.fromJson (sampleCrates.toJson event) = some read) : read = event := by
  have listed : ∀ entry ∈ sampleJson, sampleCrates.fromJson entry.2 = some entry.1 := by
    decide +kernel
  have unlisted : sampleCrates.fromJson "null" = none := by decide +kernel
  have text : sampleCrates.toJson event =
      ((sampleJson.find? fun entry => entry.1 = event).map Prod.snd).getD "null" := rfl
  rw [text] at decoded
  cases found : sampleJson.find? fun entry => entry.1 = event with
  | none =>
    rw [found] at decoded
    exact (Option.some_ne_none read (decoded.symm.trans unlisted)).elim
  | some entry =>
    rw [found] at decoded
    have reads := listed entry (List.mem_of_find?_eq_some found)
    obtain rfl : entry.1 = read := Option.some.inj (reads.symm.trans decoded)
    have same := List.find?_some found
    exact of_decide_eq_true same

theorem delaysReadBack_sample : DelaysReadBack sampleCrates where
  domain data read decoded := by
    obtain rfl := ParsedData.parsedDomain.inj (sampleJson_readsBack decoded)
    exact ⟨rfl, rfl⟩
  page page read decoded := by cases sampleJson_readsBack decoded

/-- The slow web keeps the delays of its sites. -/
theorem sampleSlowWeb_keepsDelays (url : SampleUrl) (data : DomainData) (delay : Duration)
    (got : getDomainData sampleCrates sampleSlowWeb url defaultAgentName = .ok data)
    (converts : data.delay.toDuration = some delay) :
    delay = sampleDelays data.domainString := by
  have fetched : ∃ data, getDomainData sampleCrates sampleSlowWeb url defaultAgentName = .ok data ∧
      data.delay.toDuration = some (sampleDelays data.domainString) := by
    cases url <;> exact ⟨_, rfl, by decide +kernel⟩
  obtain ⟨_, same, known⟩ := fetched
  obtain rfl := Except.ok.inj (same.symm.trans got)
  exact Option.some.inj (converts.symm.trans known)

/-- The worker learns the delay of the site before it downloads two of its pages. -/
theorem learned_delay_kept_sample : ∃ started, sampleUnlearned = some started ∧
    ∃ crawler : Crawler SampleUrl 1,
      Transition.run (crawlerStep sampleCrates none) sampleLearned (Crawler.begin 0 started) =
        some crawler ∧
      crawler.DelayKept := by
  obtain ⟨started, starts, unknown, nothing, crawler, ran⟩ : ∃ started,
      sampleUnlearned = some started ∧ started.1.storage.db.domains.rows = [] ∧
      started.1.pending = [] ∧
      ∃ crawler : Crawler SampleUrl 1, Transition.runWith (crawlerStep sampleCrates none)
        (fun crawler action => wakeInOrder crawler action = true)
        sampleLearned (Crawler.begin 0 started) = some crawler := ⟨_, rfl, rfl, rfl, _, rfl⟩
  have keeps : Transition.Permits (crawlerStep sampleCrates none)
      (fun _ action => KeepsDelays sampleCrates sampleDelays action) sampleLearned
      (Crawler.begin 0 started : Crawler SampleUrl 1) := by
    refine Transition.permits_of_forall fun action member _ => ?_
    revert action
    simpa [sampleLearned, sampleLearn, sampleSlowPage, sampleTake, KeepsDelays] using
      sampleSlowWeb_keepsDelays
  exact ⟨started, starts, crawler, Transition.run_of_runWith ran,
    learned_delay_kept delaysReadBack_sample unknown nothing
      (Transition.reachesWith_of_run (Transition.run_of_runWith ran)
        (keeps.and (Transition.permits_of_runWith ran)))⟩

end PoliteCrawler
