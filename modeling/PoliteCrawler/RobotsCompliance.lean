/-
This file proves what is stored in compliance with robots.txt. A worker checks
the URL it was given, while a page event carries the URL its response came from.

In a run in which every response that becomes a page comes from the URL that was
asked for, or from one that is allowed as well, every published page is allowed
on the storage state its download was decided on.
-/

import PoliteCrawler.CrawlerMoves

namespace PoliteCrawler

variable {Url : Type} (crates : Crates Url)

/-! ### Allowed pages -/

/-- The storage state allows the URL. -/
def Allows (decided : CrawlerStorage Url) (url : Url) : Prop :=
  (decided.checkIfUrlAllowed crates DbFaults.none url).1 = .ok .allowed

/-- The URL of the event is allowed where its download was decided. -/
def PublishedPage.Compliant (published : PublishedPage Url) : Prop :=
  ∃ url, crates.url.parse published.page.url = .ok url ∧ Allows crates published.decided url

/-- A worker on its way to publish a page holds an allowed URL. -/
def Worker.Cleared : Worker Url → Prop
  | .working url _ (.askingDelay _ decided) | .working url _ (.fetchingPage decided) =>
    Allows crates decided url
  | .working _ _ (.savingPage page decided) => Allows crates decided page.url
  | _ => True

/-- A fragment makes no difference to the check. -/
theorem allows_responseUrl {decided : CrawlerStorage Url} {final : Url} :
    Allows crates decided (responseUrl crates final) ↔ Allows crates decided final := by
  simp only [Allows, CrawlerStorage.checkIfUrlAllowed, responseUrl,
    crates.url.domain_withoutFragment, crates.url.path_withoutFragment]

/-! ### The runs that stay on allowed URLs -/

/-- The check of the URL answers that it is allowed. -/
def answersAllowed (decided : CrawlerStorage Url) (url : Url) : Bool :=
  match (decided.checkIfUrlAllowed crates DbFaults.none url).1 with
  | .ok access => access = .allowed
  | .error _ => false

theorem answersAllowed_iff {decided : CrawlerStorage Url} {url : Url} :
    answersAllowed crates decided url = true ↔ Allows crates decided url := by
  unfold answersAllowed Allows
  cases (decided.checkIfUrlAllowed crates DbFaults.none url).1 with
  | ok access => rw [decide_eq_true_eq, Except.ok.injEq]
  | error abort => exact iff_of_false Bool.false_ne_true nofun

variable [DecidableEq Url]

/-- The request of the worker does not become a page, or becomes one of the URL it asked for or of
one that is allowed as well. -/
def staysAllowed : Worker Url → Input Url → Bool
  | .working url _ (.fetchingPage decided), .web web _ =>
    isBlacklistedExtension crates url ||
      match sendWithRetry web url with
      | .ok (final, response) =>
        !(declaresNonHtml response || response.isSuccess) || final = url ||
          answersAllowed crates decided final
      | .error _ => true
  | _, _ => true

def followsAllowed {n : Nat} (crawler : Crawler Url n) : CrawlerAction Url n → Bool
  | .worker id input => staysAllowed crates (crawler.workers id) input
  | _ => true

/-! ### Steps -/

section Steps

variable {crates} {shared next : Shared Url} {worker after : Worker Url} {input : Input Url}

theorem getPage_allowed {web : Web Url} {keywordsFile : Option String} {url : Url} {ticket : Nat}
    {decided : CrawlerStorage Url} {data : NotParsedPageData Url}
    (got : getPage crates web url = .ok data) (allowed : Allows crates decided url)
    (stays : staysAllowed crates (.working url ticket (.fetchingPage decided))
      (.web web keywordsFile) = true) : Allows crates decided data.url := by
  rcases getPage_ok crates got with same | ⟨unlisted, final, response, sent, page, same⟩
  · exact same ▸ allowed
  · rw [same, allows_responseUrl]
    simp only [staysAllowed, unlisted, sent, Bool.false_or, Bool.or_eq_true, Bool.not_eq_true',
      Bool.or_eq_false_iff, decide_eq_true_eq] at stays
    rcases stays with (⟨html, fails⟩ | asked) | answers
    · rcases page with nonHtml | success
      · exact absurd (html.symm.trans nonHtml) Bool.false_ne_true
      · exact absurd (fails.symm.trans success) Bool.false_ne_true
    · exact asked ▸ allowed
    · exact (answersAllowed_iff crates).mp answers

theorem TaskMoved.cleared {url : Url} {ticket : Nat} {task : Task Url}
    (moved : TaskMoved crates url ticket shared task input next worker)
    (cleared : (Worker.working url ticket task).Cleared crates)
    (stays : staysAllowed crates (.working url ticket task) input = true) :
    worker.Cleared crates := by
  cases moved with
  | checkedPage _ allowed => exact CrawlerStorage.checkIfUrlAllowed_faultless crates allowed
  | delayAsked _ goesOn =>
    rcases goesOn with rfl | ⟨_, rfl⟩
    · exact cleared
    · trivial
  | pageFetched got goesOn =>
    rcases goesOn with rfl | rfl
    · show Allows crates _ (ParsedPage.parse crates _ _).2.url
      rw [parse_url]
      exact getPage_allowed got cleared stays
    · trivial
  | domainSaved goesOn => rcases goesOn with rfl | ⟨_, rfl⟩ <;> trivial
  | sitemapDelayAsked _ goesOn => rcases goesOn with rfl | ⟨_, rfl⟩ <;> trivial
  | pageSaved _ goesOn => rcases goesOn with rfl | ⟨_, rfl⟩ <;> trivial
  | pushFailed _ goesOn => rcases goesOn with ⟨_, rfl⟩ | rfl <;> trivial
  | _ => trivial

/-- The events after a step: those before it, and that of a cleared page. -/
theorem WorkerMoved.published (moved : WorkerMoved crates shared worker input next after)
    (cleared : worker.Cleared crates)
    (compliant : ∀ page ∈ shared.journal.published, page.Compliant crates) :
    ∀ page ∈ next.journal.published, page.Compliant crates := by
  cases moved with
  | task moved =>
    cases moved with
    | pageSaved _ _ =>
      intro published member
      rcases List.mem_cons.mp member with rfl | old
      · exact ⟨_, crates.url.parse_asStr _, cleared⟩
      · exact compliant published old
    | _ => exact compliant
  | _ => exact compliant

theorem WorkerMoved.cleared (moved : WorkerMoved crates shared worker input next after)
    (cleared : worker.Cleared crates) (stays : staysAllowed crates worker input = true) :
    after.Cleared crates := by
  cases moved with
  | task moved => exact moved.cleared cleared stays
  | looped goesOn => rcases goesOn with rfl | rfl <;> trivial
  | released owed =>
    rcases owed with ⟨_, rfl⟩ | ⟨_, rfl⟩ | ⟨_, _, rfl | rfl⟩ <;> trivial
  | _ => trivial

/-- The workers are cleared and the published pages compliant. -/
structure Crawler.Obeys (crates : Crates Url) {n : Nat} (crawler : Crawler Url n) : Prop where
  cleared : ∀ id, (crawler.workers id).Cleared crates
  compliant : ∀ page ∈ crawler.shared.journal.published, page.Compliant crates

theorem CrawlerMoved.obeys {n : Nat} {crawler next : Crawler Url n} {action : CrawlerAction Url n}
    (moved : CrawlerMoved crates crawler action next) (obeys : crawler.Obeys crates)
    (follows : followsAllowed crates crawler action = true) : next.Obeys crates := by
  cases moved with
  | @worker id _ _ _ moved =>
    exact ⟨Transition.forall_update obeys.cleared (moved.cleared (obeys.cleared id) follows),
      moved.published (obeys.cleared id) obeys.compliant⟩
  | _ => exact ⟨obeys.cleared, obeys.compliant⟩

end Steps

/-! ### Runs -/

variable {crates} {n : Nat}

/-- Every published page is allowed where its download was decided, in a run whose redirects end
at allowed URLs. -/
theorem published_compliant {limit : Option (BitVec 64)} {clock : Instant}
    {started : StorageService Url × Nat} {crawler : Crawler Url n}
    (reached : Transition.ReachesWith (crawlerStep crates limit)
      (fun crawler action => followsAllowed crates crawler action = true)
      (Crawler.begin clock started) crawler) :
    ∀ page ∈ crawler.shared.journal.published, page.Compliant crates := by
  have start : (Crawler.begin clock started : Crawler Url n).Obeys crates :=
    ⟨fun _ => trivial, nofun⟩
  have obeys := reached.invariant start fun before action after obeys follows moved =>
    (crawlerStep_moved crates moved).obeys obeys follows
  exact obeys.compliant

/-! ### The sample web -/

/-- A database that knows the first site, with its rule for the secret page. -/
def CrawlerDb.sampleRuled : CrawlerDb :=
  CrawlerDb.empty.upsertDomain {
    domainString := "a.example"
    robots := some "User-agent: *\nDisallow: /secret"
    delay := 0x3f800000#32 }

/-- The home page is allowed and is published. -/
theorem published_compliant_sample : ∃ started,
    sampleStart CrawlerDb.sampleRuled "https://a.example/" = some started ∧
      ∃ crawler : Crawler SampleUrl 1,
        Transition.run (crawlerStep sampleCrates none)
          ((sampleTake ++ samplePageTask).map (.worker 0)) (Crawler.begin 0 started) =
            some crawler ∧
        ∀ page ∈ crawler.shared.journal.published, page.Compliant sampleCrates := by
  obtain ⟨started, starts, crawler, ran⟩ : ∃ started,
      sampleStart CrawlerDb.sampleRuled "https://a.example/" = some started ∧
        ∃ crawler : Crawler SampleUrl 1, Transition.runWith (crawlerStep sampleCrates none)
          (fun crawler action => followsAllowed sampleCrates crawler action = true)
          ((sampleTake ++ samplePageTask).map (.worker 0)) (Crawler.begin 0 started) =
            some crawler := ⟨_, rfl, _, rfl⟩
  exact ⟨started, starts, crawler, Transition.run_of_runWith ran,
    published_compliant (Transition.reachesWith_of_runWith ran)⟩

/-- The page about the site is allowed and redirects to the secret page, which is not. The event
that is published carries the URL of the secret page. -/
theorem redirect_published : ∃ started,
    sampleStart CrawlerDb.sampleRuled "https://a.example/about" = some started ∧
      ∃ crawler : Crawler SampleUrl 1,
        Transition.Reaches (crawlerStep sampleCrates none) (Crawler.begin 0 started) crawler ∧
        ¬ ∀ page ∈ crawler.shared.journal.published, page.Compliant sampleCrates := by
  obtain ⟨started, starts, crawler, ran⟩ : ∃ started,
      sampleStart CrawlerDb.sampleRuled "https://a.example/about" = some started ∧
        ∃ crawler : Crawler SampleUrl 1, Transition.run (crawlerStep sampleCrates none)
          ((sampleTake ++ samplePageTask).map (.worker 0)) (Crawler.begin 0 started) =
            some crawler := ⟨_, rfl, _, rfl⟩
  have state : ((sampleStart CrawlerDb.sampleRuled "https://a.example/about").bind fun started =>
      (Transition.run (crawlerStep sampleCrates none)
        ((sampleTake ++ samplePageTask).map (.worker 0))
        (Crawler.begin 0 started : Crawler SampleUrl 1)).map fun crawler =>
          crawler.shared.journal.published.map fun published =>
            (published.page, answersAllowed sampleCrates published.decided .secret)) =
      some [(samplePage .secret "", false)] := by decide +kernel
  rw [starts, Option.bind_some, ran] at state
  simp only [Option.map_some, Option.some.injEq] at state
  obtain ⟨published, member, event⟩ := List.mem_map.mp (state ▸ List.mem_singleton_self _)
  obtain ⟨page, refused⟩ := Prod.mk.inj event
  refine ⟨started, starts, crawler, Transition.reaches_of_run ran, fun compliant => ?_⟩
  obtain ⟨url, parsed, allowed⟩ := compliant published member
  rw [page] at parsed
  obtain rfl : SampleUrl.secret = url := Except.ok.inj parsed
  exact Bool.false_ne_true (refused.symm.trans ((answersAllowed_iff sampleCrates).mpr allowed))

end PoliteCrawler
