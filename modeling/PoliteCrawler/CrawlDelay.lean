/-
This file proves the crawl delay of a domain between the grants of the rate
limiter.

The limiter keeps a delay of its own, and learns the stored one only on the way
that finds a domain unknown. In a run in which it knows at least the stored
delay of every domain it is asked for, the grants of a domain are spaced by the
stored delay, as long as that stays the same.
-/

import PoliteCrawler.CrawlerMoves

namespace PoliteCrawler

variable {Url : Type}

/-! ### Grants and their distance -/

/-- The grants of the domain from number `first` to number `last` were made with the same delay
stored. -/
def Steady (grants : List Grant) (domain : String) (delay : Duration) (first last : Nat) : Prop :=
  ∀ number grant, first ≤ number → number ≤ last → grants[number]? = some grant →
    grant.domain = domain → grant.stored = some delay

/-- Two grants of a domain that led to the download of a page are apart by the delay that was stored
for the domain from the one to the other. -/
def Crawler.DelayKept {n : Nat} (crawler : Crawler Url n) : Prop :=
  ∀ first ∈ crawler.shared.journal.pageGrants, ∀ last ∈ crawler.shared.journal.pageGrants,
    first < last → ∀ earlier later delay, crawler.shared.journal.grants[first]? = some earlier →
      crawler.shared.journal.grants[last]? = some later → earlier.domain = later.domain →
      Steady crawler.shared.journal.grants later.domain delay first last →
      (delay : Int) ≤ |later.stamp - earlier.stamp|

/-! ### The runs that keep the delay -/

/-- The limiter knows at least the stored delay of the domain it is asked for. -/
def knowsDelay (limiter : DomainRateLimiter) (db : CrawlerDb) : Worker Url → Bool
  | .acquiring _ domain _ =>
    match limiter.map domain, storedDelay db domain with
    | some state, some delay => delay ≤ state.delay
    | _, _ => true
  | _ => true

/-- `await_acquiring` does not turn the last access of the domain back. -/
def wakesInOrder (limiter : DomainRateLimiter) : Worker Url → Bool
  | .working _ _ (.sleeping domain stamp) =>
    match limiter.map domain with
    | some state => state.lastAccessed ≤ stamp
    | none => true
  | _ => true

def knowsDelays {n : Nat} (crawler : Crawler Url n) : CrawlerAction Url n → Bool
  | .worker id _ => knowsDelay crawler.shared.limiter crawler.shared.service.storage.db
    (crawler.workers id)
  | _ => true

def wakeInOrder {n : Nat} (crawler : Crawler Url n) : CrawlerAction Url n → Bool
  | .worker id _ => wakesInOrder crawler.shared.limiter (crawler.workers id)
  | _ => true

/-! ### Pacing -/

/-- The grants of a domain are spaced, and the limiter remembers the last of them, as long as the
delay stored for the domain stays the same. -/
structure Paced (limiter : DomainRateLimiter) (grants : List Grant) : Prop where
  spaced : ∀ first last earlier later (delay : Duration), first < last →
    grants[first]? = some earlier → grants[last]? = some later → earlier.domain = later.domain →
    0 < delay → Steady grants later.domain delay first last →
    earlier.stamp + (delay : Int) ≤ later.stamp
  recent : ∀ first earlier (delay : Duration), grants[first]? = some earlier → 0 < delay →
    Steady grants earlier.domain delay first grants.length →
    limiter.Since earlier.domain earlier.stamp

theorem paced_nil (limiter : DomainRateLimiter) : Paced limiter [] :=
  ⟨fun _ _ _ _ _ _ granted => (Option.some_ne_none _ granted.symm).elim,
    fun _ _ _ granted => (Option.some_ne_none _ granted.symm).elim⟩

/-- A limiter that remembers no less keeps the pace. -/
theorem Paced.remembers {limiter after : DomainRateLimiter} {grants : List Grant}
    (paced : Paced limiter grants)
    (remembers : ∀ domain stamp, limiter.Since domain stamp → after.Since domain stamp) :
    Paced after grants :=
  ⟨paced.spaced, fun first earlier delay granted positive steady =>
    remembers _ _ (paced.recent first earlier delay granted positive steady)⟩

theorem getElem?_concat {Value : Type} {values : List Value} {value other : Value} {number : Nat}
    (found : (values ++ [value])[number]? = some other) :
    values[number]? = some other ∨ number = values.length ∧ other = value := by
  rcases Nat.lt_trichotomy number values.length with before | same | beyond
  · rw [List.getElem?_append_left before] at found
    exact Or.inl found
  · subst same
    rw [List.getElem?_concat_length] at found
    exact Or.inr ⟨rfl, (Option.some.inj found).symm⟩
  · rw [List.getElem?_eq_none (by simpa using beyond)] at found
    cases found

theorem Steady.of_concat {grants : List Grant} {grant : Grant} {domain : String}
    {delay : Duration} {first last upTo : Nat}
    (steady : Steady (grants ++ [grant]) domain delay first last) (within : upTo ≤ last) :
    Steady grants domain delay first upTo := by
  intro number other lower upper granted same
  have old : number < grants.length := (List.getElem?_eq_some_iff.mp granted).1
  refine steady number other lower (upper.trans within) ?_ same
  rw [List.getElem?_append_left old]
  exact granted

section Grant

variable {limiter : DomainRateLimiter} {grants : List Grant} {domain : String} {stamp : Instant}
  {stored : Option Duration}

/-- A new grant comes a stored delay after every grant since which that delay has been stored. -/
theorem Paced.grant_after (paced : Paced limiter grants)
    (passes : ∀ state delay, limiter.map domain = some state → stored = some delay →
      delay ≤ saturatingDurationSince stamp state.lastAccessed)
    {first : Nat} {earlier : Grant} {delay : Duration} (granted : grants[first]? = some earlier)
    (same : earlier.domain = domain) (positive : 0 < delay)
    (steady : Steady (grants ++ [⟨domain, stamp, stored⟩]) domain delay first grants.length) :
    earlier.stamp + (delay : Int) ≤ stamp := by
  have old : first < grants.length := (List.getElem?_eq_some_iff.mp granted).1
  have now : stored = some delay :=
    steady grants.length ⟨domain, stamp, stored⟩ old.le le_rfl List.getElem?_concat_length rfl
  obtain ⟨state, entered, recent⟩ := paced.recent first earlier delay granted positive
    (same ▸ steady.of_concat le_rfl)
  have passed := passes state delay (same ▸ entered) now
  exact (add_le_add_left recent _).trans (add_le_of_le_saturatingDurationSince positive passed)

theorem Paced.grant (paced : Paced limiter grants)
    (passes : ∀ state delay, limiter.map domain = some state → stored = some delay →
      delay ≤ saturatingDurationSince stamp state.lastAccessed) (state : DomainState)
    (accessed : state.lastAccessed = stamp) :
    Paced (limiter.setEntry domain state) (grants ++ [⟨domain, stamp, stored⟩]) := by
  refine ⟨?_, ?_⟩
  · intro first last earlier later delay order before after same positive steady
    rcases getElem?_concat before with old | ⟨rfl, _⟩
    · rcases getElem?_concat after with middle | ⟨rfl, rfl⟩
      · exact paced.spaced first last earlier later delay order old middle same positive
          (steady.of_concat le_rfl)
      · exact paced.grant_after passes old same positive steady
    · have bound := (List.getElem?_eq_some_iff.mp after).1
      rw [List.length_append, List.length_singleton] at bound
      omega
  · intro first earlier delay granted positive steady
    rw [List.length_append, List.length_singleton] at steady
    rcases getElem?_concat granted with old | ⟨rfl, rfl⟩
    · refine (paced.recent first earlier delay old positive
        (steady.of_concat (Nat.le_succ _))).setEntry ?_
      intro same _ _ _
      have upTo : Steady (grants ++ [⟨domain, stamp, stored⟩]) domain delay first
          grants.length := by
        intro number other lower upper granted here
        exact steady number other lower (upper.trans (Nat.le_succ _)) granted
          (here.trans same.symm)
      have spaced := paced.grant_after passes old same positive upTo
      rw [accessed]
      exact (le_add_of_nonneg_right (Int.natCast_nonneg delay)).trans spaced
    · exact accessed ▸ limiter.since_setEntry domain state

end Grant

/-! ### Steps -/

section Steps

variable [DecidableEq Url] {crates : Crates Url} {shared next : Shared Url}
  {worker after : Worker Url} {input : Input Url}

theorem remembers_updateDelay (limiter : DomainRateLimiter) (domain : String) (delay : Duration)
    (now : Instant) {other : String} {stamp : Instant} (since : limiter.Since other stamp) :
    (limiter.updateDelay domain delay now).Since other stamp := by
  unfold DomainRateLimiter.updateDelay
  split
  · rename_i state entered
    refine since.setEntry fun _ old same recent => ?_
    obtain rfl := Option.some.inj (entered.symm.trans same)
    exact recent
  · rename_i missing
    refine since.setEntry fun _ old same _ => ?_
    rw [missing] at same
    cases same

theorem TaskMoved.paced {url : Url} {ticket : Nat} {task : Task Url}
    (moved : TaskMoved crates url ticket shared task input next worker)
    (paced : Paced shared.limiter shared.journal.grants)
    (wakes : wakesInOrder shared.limiter (.working url ticket task) = true) :
    Paced next.limiter next.journal.grants := by
  cases moved with
  | delayUpdated converts =>
    exact paced.remembers fun _ _ => remembers_updateDelay shared.limiter _ _ _
  | @slept domain stamp =>
    refine paced.remembers fun other earlier since => since.setEntry ?_
    intro _ state entered recent
    rw [wakesInOrder, entered] at wakes
    exact recent.trans (of_decide_eq_true wakes)
  | _ => exact paced

theorem WorkerMoved.paced (moved : WorkerMoved crates shared worker input next after)
    (paced : Paced shared.limiter shared.journal.grants)
    (knows : knowsDelay shared.limiter shared.service.storage.db worker = true)
    (wakes : wakesInOrder shared.limiter worker = true) :
    Paced next.limiter next.journal.grants := by
  cases moved with
  | @granted url domain stamp passed =>
    refine paced.grant ?_ _ rfl
    intro state delay entered stored
    rw [DomainRateLimiter.entry_of_some entered] at passed
    rw [knowsDelay, entered, stored] at knows
    exact (of_decide_eq_true knows).trans passed
  | @refused url domain stamp =>
    refine paced.remembers fun other earlier since => since.setEntry ?_
    intro _ state entered recent
    rw [DomainRateLimiter.entry_of_some entered]
    exact recent
  | task moved => exact moved.paced paced wakes
  | _ => exact paced

theorem CrawlerMoved.paced {n : Nat} {crawler next : Crawler Url n} {action : CrawlerAction Url n}
    (moved : CrawlerMoved crates crawler action next)
    (paced : Paced crawler.shared.limiter crawler.shared.journal.grants)
    (knows : knowsDelays crawler action = true) (wakes : wakeInOrder crawler action = true) :
    Paced next.shared.limiter next.shared.journal.grants := by
  cases moved with
  | worker moved => exact moved.paced paced knows wakes
  | _ => exact paced

end Steps

/-! ### Runs -/

section Runs

variable [DecidableEq Url] {crates : Crates Url} {n : Nat}

omit [DecidableEq Url] in
theorem Paced.delayKept {crawler : Crawler Url n}
    (paced : Paced crawler.shared.limiter crawler.shared.journal.grants) : crawler.DelayKept := by
  intro first _ last _ order earlier later delay before after same steady
  rcases Nat.eq_zero_or_pos delay with rfl | positive
  · exact abs_nonneg _
  · have spaced := paced.spaced first last earlier later delay order before after same positive
      steady
    exact (le_sub_iff_add_le'.mpr spaced).trans (le_abs_self _)

/-- The grants for page downloads keep the stored delay, in a run in which the limiter knows at
least that delay and no wait turns a last access back. -/
theorem crawl_delay_kept {limit : Option (BitVec 64)} {clock : Instant}
    {started : StorageService Url × Nat} {crawler : Crawler Url n}
    (reached : Transition.ReachesWith (crawlerStep crates limit)
      (fun crawler action => knowsDelays crawler action = true ∧ wakeInOrder crawler action = true)
      (Crawler.begin clock started) crawler) : crawler.DelayKept := by
  have paced := reached.invariant (paced_nil (DomainRateLimiter.new (10 ^ 9)))
    fun before action after paced known moved =>
      (crawlerStep_moved crates moved).paced paced known.1 known.2
  exact Paced.delayKept paced

end Runs

/-! ### The sample web -/

/-- The sample web with a robots.txt on the first site that asks for five seconds. -/
def sampleSlowWeb : Web SampleUrl := fun attempt url =>
  match url with
  | .robots => .answer ⟨200, none, sampleSlowDomain.robots⟩
  | url => sampleWeb attempt url

/-- A worker finds the site of a URL unknown, learns its delay and publishes it. -/
def sampleLearn : List (Input SampleUrl) :=
  sampleTake ++ [.web sampleSlowWeb none, .proceed, .redis .answered, .proceed, .proceed]

/-- A worker downloads a page of the site and publishes it. -/
def sampleSlowPage : List (Input SampleUrl) :=
  sampleTake ++ [.rpc DbFaults.none .answered, .web sampleSlowWeb none, .redis .answered, .proceed]

/-- The storage service stores the delay that was published, and two pages follow five seconds
apart. -/
def sampleLearned : List (CrawlerAction SampleUrl 1) :=
  sampleLearn.map (.worker 0) ++
    [.service (.read .answered), .service (.process DbFaults.none), .service (.ack .answered),
      .tick (5 * 10 ^ 9)] ++
    sampleSlowPage.map (.worker 0) ++
    [.worker 0 .proceed, .worker 0 .proceed, .tick (5 * 10 ^ 9)] ++
    sampleSlowPage.map (.worker 0)

/-- A crawl of three pages of the first site, which the storage service does not know. -/
def sampleUnlearned : Option (StorageService SampleUrl × Nat) :=
  sampleStart CrawlerDb.empty
    "https://a.example/ https://a.example/about https://a.example/secret"

/-- A database that knows the first site, with its crawl delay of five seconds. -/
def CrawlerDb.sampleSlow : CrawlerDb := CrawlerDb.empty.upsertDomain sampleSlowDomain

/-- Two workers download a page of the site each, the second one a pause after the first. -/
def sampleTwoPages (pause : Duration) : List (CrawlerAction SampleUrl 2) :=
  (sampleTake ++ samplePageTask).map (.worker 0) ++ [.tick pause] ++
    (sampleTake ++ samplePageTask).map (.worker 1)

/-- The limiter has learned the delay before the pages, and the second of them comes five seconds
after the first. -/
theorem crawl_delay_kept_sample : ∃ started, sampleUnlearned = some started ∧
    ∃ crawler : Crawler SampleUrl 1,
      Transition.run (crawlerStep sampleCrates none) sampleLearned (Crawler.begin 0 started) =
        some crawler ∧
      crawler.DelayKept := by
  obtain ⟨started, starts, crawler, ran⟩ : ∃ started, sampleUnlearned = some started ∧
      ∃ crawler : Crawler SampleUrl 1, Transition.runWith (crawlerStep sampleCrates none)
        (fun crawler action =>
          knowsDelays crawler action = true ∧ wakeInOrder crawler action = true)
        sampleLearned (Crawler.begin 0 started) = some crawler := ⟨_, rfl, _, rfl⟩
  exact ⟨started, starts, crawler, Transition.run_of_runWith ran,
    crawl_delay_kept (Transition.reachesWith_of_runWith ran)⟩

/-- The limiter does not know the delay of a domain that the service knows, and lets the second page
through after its own default of one second. -/
theorem crawl_delay_broken : ∃ started,
    sampleStart CrawlerDb.sampleSlow "https://a.example/ https://a.example/about" = some started ∧
      ∃ crawler : Crawler SampleUrl 2,
        Transition.Reaches (crawlerStep sampleCrates none) (Crawler.begin 0 started) crawler ∧
        ¬ crawler.DelayKept := by
  obtain ⟨started, starts, crawler, ran⟩ : ∃ started,
      sampleStart CrawlerDb.sampleSlow "https://a.example/ https://a.example/about" =
        some started ∧
        ∃ crawler : Crawler SampleUrl 2, Transition.run (crawlerStep sampleCrates none)
          (sampleTwoPages (10 ^ 9)) (Crawler.begin 0 started) = some crawler := ⟨_, rfl, _, rfl⟩
  have state : ((sampleStart CrawlerDb.sampleSlow
      "https://a.example/ https://a.example/about").bind fun started =>
      (Transition.run (crawlerStep sampleCrates none) (sampleTwoPages (10 ^ 9))
        (Crawler.begin 0 started : Crawler SampleUrl 2)).map fun crawler =>
          (crawler.shared.journal.pageGrants, crawler.shared.journal.grants)) =
      some ([1, 0], [⟨"a.example", 0, some (5 * 10 ^ 9)⟩,
        ⟨"a.example", 10 ^ 9, some (5 * 10 ^ 9)⟩]) := by decide +kernel
  rw [starts, Option.bind_some, ran] at state
  simp only [Option.map_some, Option.some.injEq, Prod.mk.injEq] at state
  obtain ⟨pages, grants⟩ := state
  refine ⟨started, starts, crawler, Transition.reaches_of_run ran, fun kept => ?_⟩
  have stored : ∀ grant ∈ crawler.shared.journal.grants, grant.stored = some (5 * 10 ^ 9) := by
    rw [grants]
    decide
  have spaced := kept 0 (by rw [pages]; decide) 1 (by rw [pages]; decide) Nat.zero_lt_one
    ⟨"a.example", 0, some (5 * 10 ^ 9)⟩ ⟨"a.example", 10 ^ 9, some (5 * 10 ^ 9)⟩ (5 * 10 ^ 9)
    (by rw [grants]; rfl) (by rw [grants]; rfl) rfl
    fun _ grant _ _ granted _ => stored grant (List.mem_of_getElem? granted)
  have close : ¬ ((5 * 10 ^ 9 : Nat) : Int) ≤ |(10 ^ 9 : Int) - 0| := by norm_num
  exact close spaced

end PoliteCrawler
