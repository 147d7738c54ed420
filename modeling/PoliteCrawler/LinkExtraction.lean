/-
This file says when the outbound links of a page are exactly its links.

A link is read off an `href` by parsing it, or by joining it to the page when it
is relative, and loses its fragment. The extractor drops the links that equal the
page's URL as it is, with its fragment. So on a page whose URL carries one, a link
to the page itself is kept; nothing else goes wrong.
-/

import PoliteCrawler.HtmlParser

namespace PoliteCrawler

variable {Url : Type} (crates : Crates Url)

/-! ### Partial lists -/

/-- A list that leaves out some of what another one has is the same list only when it leaves out
nothing. -/
theorem filterMap_eq_iff_of_le {Entry Value : Type*} {full fewer : Entry → Option Value}
    (le : ∀ entry, fewer entry = full entry ∨ fewer entry = none) (entries : List Entry) :
    entries.filterMap fewer = entries.filterMap full ↔
      ∀ entry ∈ entries, fewer entry = full entry := by
  have shorter : ∀ entries : List Entry,
      (entries.filterMap fewer).length ≤ (entries.filterMap full).length := by
    intro entries
    induction entries with
    | nil => exact le_rfl
    | cons entry rest inductionHypothesis =>
      rw [List.filterMap_cons, List.filterMap_cons]
      rcases le entry with same | left
      · rw [same]
        cases full entry with
        | none => exact inductionHypothesis
        | some value => exact Nat.succ_le_succ inductionHypothesis
      · rw [left]
        cases full entry with
        | none => exact inductionHypothesis
        | some value => exact Nat.le_succ_of_le inductionHypothesis
  constructor
  · intro equal
    induction entries with
    | nil => exact nofun
    | cons entry rest inductionHypothesis =>
      rw [List.filterMap_cons, List.filterMap_cons] at equal
      have head : fewer entry = full entry := by
        rcases le entry with same | left
        · exact same
        · cases value : full entry with
          | none => exact left
          | some value' =>
            simp only [left, value] at equal
            have bound := shorter rest
            rw [equal, List.length_cons] at bound
            exact absurd bound (Nat.not_succ_le_self _)
      have tail : rest.filterMap fewer = rest.filterMap full := by
        rw [head] at equal
        cases value : full entry with
        | none => rwa [value] at equal
        | some value' =>
          rw [value] at equal
          exact (List.cons.inj equal).2
      exact List.forall_mem_cons.mpr ⟨head, inductionHypothesis tail⟩
  · exact fun same => List.filterMap_congr same

theorem filter_eq_self_iff {Value : Type*} {entry : Option Value} {keeps : Value → Bool} :
    entry.filter keeps = entry ↔ ∀ value, entry = some value → keeps value = true := by
  cases entry with
  | none => exact iff_of_true rfl nofun
  | some value => simp [Option.filter_some]

/-! ### The links of a page -/

/-- What the `url` crate says of fragments and of relative references. -/
structure UrlLaws : Prop where
  withoutFragment_idem : ∀ url, crates.url.withoutFragment (crates.url.withoutFragment url) =
    crates.url.withoutFragment url
  scheme_withoutFragment : ∀ url, crates.url.scheme (crates.url.withoutFragment url) =
    crates.url.scheme url
  /-- A reference without a scheme takes that of its base. -/
  scheme_join : ∀ base reference url,
    crates.url.parse reference = .error .relativeUrlWithoutBase →
      crates.url.join base reference = .ok url → crates.url.scheme url = crates.url.scheme base

def IsHttp (url : Url) : Prop := crates.url.scheme url = "http" ∨ crates.url.scheme url = "https"

instance (url : Url) : Decidable (IsHttp crates url) :=
  inferInstanceAs (Decidable (_ ∨ _))

/-- The URL of an `href` on the page: parsed, or joined to the page when it is relative. -/
def resolved (page : Url) (href : String) : Option Url :=
  match crates.url.parse href with
  | .ok url => some url
  | .error .relativeUrlWithoutBase => (crates.url.join page href).toOption
  | .error .other => none

/-- The `href` attributes of the `a` elements, in document order. -/
def hrefs (doc : Html) : List String :=
  (doc.select fun element => element.name = "a").filterMap fun element => element.attr "href"

variable [DecidableEq Url]

/-- The link of an `href`: an http or https URL without its fragment that is not the page's. -/
def exactLink (page : Url) (href : String) : Option Url :=
  ((resolved crates page href).map crates.url.withoutFragment).filter fun url =>
    IsHttp crates url ∧ url ≠ crates.url.withoutFragment page

/-- The `href` leads to the page itself, up to the fragment. -/
def LeadsBack (page : Url) (href : String) : Prop :=
  (resolved crates page href).map crates.url.withoutFragment =
    some (crates.url.withoutFragment page)

/-! ### The extractor -/

section Extractor

variable {crates} {page : Url}

/-- The http and https links of an `href`, the page's own URL among them. -/
def linkOf (crates : Crates Url) (page : Url) (href : String) : Option Url :=
  ((resolved crates page href).map crates.url.withoutFragment).filter (IsHttp crates)

omit [DecidableEq Url] in
theorem UrlLaws.isHttp_withoutFragment (laws : UrlLaws crates) (url : Url) :
    IsHttp crates (crates.url.withoutFragment url) ↔ IsHttp crates url := by
  rw [IsHttp, IsHttp, laws.scheme_withoutFragment]

/-- The extractor leaves out the links that equal the page's URL as it is. -/
theorem outboundUrl_eq_filter (laws : UrlLaws crates) (http : IsHttp crates page) (href : String) :
    outboundUrl crates page href = (linkOf crates page href).filter (· ≠ page) := by
  have kept : ∀ url, IsHttp crates url → outboundUrl.keepOther page
      (crates.url.withoutFragment url) =
        (((some url).map crates.url.withoutFragment).filter (IsHttp crates)).filter (· ≠ page) := by
    intro url scheme
    have still := (laws.isHttp_withoutFragment url).mpr scheme
    rw [Option.map_some, Option.filter_some, if_pos (decide_eq_true still), Option.filter_some,
      outboundUrl.keepOther]
    by_cases same : crates.url.withoutFragment url = page <;> simp [same]
  unfold outboundUrl linkOf resolved
  cases parsed : crates.url.parse href with
  | ok url =>
    by_cases scheme : IsHttp crates url
    · exact (if_pos scheme).trans (kept url scheme)
    · have still := mt (laws.isHttp_withoutFragment url).mp scheme
      refine (if_neg scheme).trans ?_
      rw [Option.map_some, Option.filter_some, if_neg (by simpa using still)]
      rfl
  | error reason =>
    cases reason with
    | other => rfl
    | relativeUrlWithoutBase =>
      cases joined : crates.url.join page href with
      | error reason => rfl
      | ok url =>
        refine kept url ?_
        unfold IsHttp
        rw [laws.scheme_join page href url parsed joined]
        exact http

theorem exactLink_eq_filter (page : Url) (href : String) :
    exactLink crates page href =
      (linkOf crates page href).filter (· ≠ crates.url.withoutFragment page) := by
  unfold exactLink linkOf
  rw [Option.filter_filter]
  refine congrArg (Option.filter · _) (funext fun url => ?_)
  simp only [ne_eq, Bool.decide_and, decide_not]

theorem outboundUrls_eq_filterMap (page : Url) (doc : Html) :
    outboundUrls crates page doc = (hrefs doc).filterMap (outboundUrl crates page) := by
  rw [outboundUrls, hrefs, List.filterMap_filterMap]

omit [DecidableEq Url] in
/-- The page's URL up to its fragment is a link of an `href` that leads back to the page. -/
theorem linkOf_eq_self_iff (laws : UrlLaws crates) (http : IsHttp crates page) (href : String) :
    linkOf crates page href = some (crates.url.withoutFragment page) ↔
      LeadsBack crates page href := by
  have scheme := (laws.isHttp_withoutFragment page).mpr http
  unfold linkOf LeadsBack
  rw [Option.filter_eq_some_iff]
  exact and_iff_left (decide_eq_true scheme)

/-- On an http or https page the outbound links are exactly its links if and only if the page's URL
has no fragment, or no link leads back to the page. -/
theorem outboundUrls_exact_iff (laws : UrlLaws crates) (http : IsHttp crates page) (doc : Html) :
    outboundUrls crates page doc = (hrefs doc).filterMap (exactLink crates page) ↔
      crates.url.withoutFragment page = page ∨
        ∀ href ∈ hrefs doc, ¬ LeadsBack crates page href := by
  rw [outboundUrls_eq_filterMap]
  by_cases whole : crates.url.withoutFragment page = page
  · refine iff_of_true (List.filterMap_congr fun href _ => ?_) (Or.inl whole)
    rw [outboundUrl_eq_filter laws http, exactLink_eq_filter, whole]
  · rw [or_iff_right whole]
    have nothingDropped : ∀ href, outboundUrl crates page href = linkOf crates page href := by
      intro href
      rw [outboundUrl_eq_filter laws http, filter_eq_self_iff]
      intro url found
      obtain ⟨resolves, _⟩ := Option.filter_eq_some_iff.mp found
      obtain ⟨target, _, rfl⟩ := Option.map_eq_some_iff.mp resolves
      refine decide_eq_true fun same => whole ?_
      rw [← same, laws.withoutFragment_idem]
    have fewer : ∀ href, exactLink crates page href = outboundUrl crates page href ∨
        exactLink crates page href = none := by
      intro href
      rw [exactLink_eq_filter, nothingDropped]
      cases linkOf crates page href with
      | none => exact Or.inl rfl
      | some url =>
        rw [Option.filter_some]
        split
        · exact Or.inl rfl
        · exact Or.inr rfl
    rw [eq_comm, filterMap_eq_iff_of_le fewer]
    refine forall₂_congr fun href _ => ?_
    rw [exactLink_eq_filter, nothingDropped, filter_eq_self_iff,
      ← linkOf_eq_self_iff laws http]
    constructor
    · exact fun all back => of_decide_eq_true (all _ back) rfl
    · rintro other url found
      exact decide_eq_true fun same => other (found.trans (congrArg some same))

end Extractor

/-! ### The small site -/

theorem urlLaws_sample : UrlLaws sampleLinkCrates where
  withoutFragment_idem url := by cases url <;> rfl
  scheme_withoutFragment url := by cases url <;> rfl
  scheme_join base reference url _ joined := by
    have found : SampleLink.join base reference = .ok url := joined
    unfold SampleLink.join at found
    by_cases other : base = .ftp
    · subst other
      rw [if_pos rfl] at found
      split at found <;> cases found
      rfl
    · have scheme : SampleLink.scheme base = "https" := by
        cases base <;> first | rfl | exact absurd rfl other
      refine Eq.trans ?_ scheme.symm
      rw [if_neg other] at found
      split at found
      · cases found
        rfl
      · split at found
        · cases found
          rfl
        · split at found <;> cases found
          rfl

/-- A page with a link to its own top, seen from its URL without and with a fragment. -/
def sampleTopPage : Html := sampleLinkDocument "<a href=\"#top\"></a>"

theorem outboundUrls_exact_sample :
    outboundUrls sampleLinkCrates .page sampleTopPage =
        (hrefs sampleTopPage).filterMap (exactLink sampleLinkCrates .page) ↔
      sampleLinkCrates.url.withoutFragment .page = .page ∨
        ∀ href ∈ hrefs sampleTopPage, ¬ LeadsBack sampleLinkCrates .page href :=
  outboundUrls_exact_iff urlLaws_sample (Or.inr rfl) sampleTopPage

/-- Parsed with the URL that has a fragment, the page links to itself. -/
theorem own_page_linked :
    (ParsedPage.parse sampleLinkCrates none ⟨.top, "<a href=\"#top\"></a>"⟩).2.outboundLinks =
        [.page] ∧
      outboundUrls sampleLinkCrates .top sampleTopPage = [.page] ∧
      (hrefs sampleTopPage).filterMap (exactLink sampleLinkCrates .top) = [] := by
  decide +kernel

end PoliteCrawler
