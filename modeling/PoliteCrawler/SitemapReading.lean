/-
This file says when the sitemap parser returns exactly the listed URLs.

The parser takes the source text of a `loc` element for its character data. In a
`loc` with text only they are the same. A CDATA section, a comment or a tag inside
it makes a difference, and the `loc` elements inside another one are swallowed by
it, even when it never ends. Nothing else goes wrong, at whichever event the
document breaks off.
-/

import PoliteCrawler.MatchingEnds
import PoliteCrawler.SitemapsParser

namespace PoliteCrawler

open SitemapsParser MatchingEnds

variable {Url : Type} (crates : Crates Url)

/-! ### Elements of a document -/

def XmlEvent.turn : XmlEvent → Turn String
  | .opening name _ => .begins name
  | .closing name _ => .ends name
  | .other _ => .stays

def XmlEvent.source : XmlEvent → String
  | .opening _ source | .closing _ source | .other source => source

/-- The source text of a sequence of events. -/
def sourceOf : List XmlEvent → String
  | [] => ""
  | event :: rest => event.source ++ sourceOf rest

/-- A piece of source between tags is text unless it begins with a bracket. -/
def isText (source : String) : Bool := source.toList.head? ≠ some '<'

/-- The characters of a CDATA section; other markup has none. -/
def cdataOf (source : String) : String :=
  if "<![CDATA[".toList.isPrefixOf source.toList then
    String.ofList ((source.toList.drop 9).take (source.toList.length - 12))
  else ""

/-- The character data of the events: the text with its references resolved, and what stands in
CDATA sections as it is. `run` is the text since the last markup. -/
def charData : String → List XmlEvent → Option String
  | run, [] => crates.unescape run
  | run, .other source :: rest =>
    if isText source then charData (run ++ source) rest
    else (crates.unescape run).bind fun text =>
      (charData "" rest).map fun more => text ++ cdataOf source ++ more
  | run, .opening _ _ :: rest | run, .closing _ _ :: rest =>
    (crates.unescape run).bind fun text => (charData "" rest).map fun more => text ++ more

/-- The URL of a text, without the white space around it. -/
def urlOfText (text : String) : Option Url :=
  if (trim crates.unicode text).isEmpty then none
  else (crates.url.parse (trim crates.unicode text)).toOption

/-- The URLs of the complete `loc` elements, in document order. -/
def listedUrls : List XmlEvent → List Url
  | [] => []
  | .opening name _ :: rest =>
    (if name = "loc" then
      (contents XmlEvent.turn 0 rest).bind fun inside =>
        (charData crates "" inside).bind (urlOfText crates)
    else none).toList ++ listedUrls rest
  | _ :: rest => listedUrls rest

/-! ### The condition -/

/-- The source text of the events, unescaped as it stands, gives the URL of their character data,
or neither gives one. -/
def ReadsSame (inside : List XmlEvent) : Prop :=
  (crates.unescape (sourceOf inside)).bind (urlOfText crates) =
    (charData crates "" inside).bind (urlOfText crates)

/-- Every `loc` element outside the others reads the same as its character data, and no `loc`
inside another one has a URL. -/
inductive LocsReadSame : List XmlEvent → Prop
  | nil : LocsReadSame []
  | skip {event rest} : (∀ source, event ≠ .opening "loc" source) → LocsReadSame rest →
      LocsReadSame (event :: rest)
  | complete {source inside name closing rest} : depthAfter XmlEvent.turn 0 inside = some 0 →
      ReadsSame crates inside → listedUrls crates inside = [] → LocsReadSame rest →
      LocsReadSame (.opening "loc" source :: (inside ++ .closing name closing :: rest))
  | unclosed {source rest} : contents XmlEvent.turn 0 rest = none → listedUrls crates rest = [] →
      LocsReadSame (.opening "loc" source :: rest)

/-- The URLs the parser returns when the reader delivers these events. -/
def urlsOfEvents (events : List XmlEvent) : List Url :=
  (locTexts events none).filterMap (locUrl crates)

/-- The parser returns exactly the listed URLs of the document, and of what the reader delivers of
it when it breaks off after any event. -/
structure ReadsExactly (content : String) : Prop where
  whole : parseSitemap crates content = listedUrls crates (crates.readEvents content)
  cutOff : ∀ beginning, beginning <+: crates.readEvents content →
    urlsOfEvents crates beginning = listedUrls crates beginning

section Reading

variable {crates}

/-! ### Character data -/

theorem charData_of_text {events : List XmlEvent} {run : String}
    (text : ∀ event ∈ events, ∃ source, event = .other source ∧ isText source = true) :
    charData crates run events = crates.unescape (run ++ sourceOf events) := by
  induction events generalizing run with
  | nil => rw [sourceOf, String.append_empty, charData]
  | cons event rest inductionHypothesis =>
    obtain ⟨source, rfl, plain⟩ := text event List.mem_cons_self
    rw [charData, if_pos plain,
      inductionHypothesis fun event member => text event (List.mem_cons_of_mem _ member),
      sourceOf, XmlEvent.source, String.append_assoc]

/-- A `loc` with text only reads the same. -/
theorem readsSame_of_text {inside : List XmlEvent}
    (text : ∀ event ∈ inside, ∃ source, event = .other source ∧ isText source = true) :
    ReadsSame crates inside := by
  rw [ReadsSame, charData_of_text text, String.empty_append]

theorem locUrl_eq (raw : String) :
    locUrl crates raw = (crates.unescape raw).bind (urlOfText crates) := by
  unfold locUrl
  refine congrArg (Option.bind _) (funext fun unescaped => ?_)
  unfold urlOfText
  dsimp only
  split
  · rfl
  · cases crates.url.parse (trim crates.unicode unescaped) <;> rfl

/-! ### The listed URLs -/

/-- After a balanced part, a document goes on like one of its own. -/
theorem listedUrls_append {inside : List XmlEvent} {depth : Nat}
    (balanced : depthAfter XmlEvent.turn depth inside = some 0) (rest : List XmlEvent) :
    listedUrls crates (inside ++ rest) = listedUrls crates inside ++ listedUrls crates rest := by
  induction inside generalizing depth with
  | nil => rfl
  | cons event inside inductionHypothesis =>
    rw [depthAfter] at balanced
    obtain ⟨next, goes, balanced⟩ := Option.bind_eq_some_iff.mp balanced
    have later := inductionHypothesis balanced
    cases event with
    | closing name source => exact later
    | other source => exact later
    | opening name source =>
      obtain rfl : depth + 1 = next := Option.some.inj goes
      obtain ⟨contained, found⟩ := exists_contents
        (show depthAfter XmlEvent.turn (0 + (depth + 1)) inside = some 0 by rwa [Nat.zero_add])
      rw [List.cons_append, listedUrls, listedUrls, later, found, contents_append found,
        List.append_assoc]

variable (crates) in
/-- What is cut off lists no more. -/
theorem listedUrls_sublist (beginning more : List XmlEvent) :
    (listedUrls crates beginning).Sublist (listedUrls crates (beginning ++ more)) := by
  induction beginning with
  | nil => exact List.nil_sublist _
  | cons event rest inductionHypothesis =>
    cases event with
    | closing name source => exact inductionHypothesis
    | other source => exact inductionHypothesis
    | opening name source =>
      rw [List.cons_append, listedUrls, listedUrls]
      cases found : contents XmlEvent.turn 0 rest with
      | none =>
        have nothing : (if name = "loc" then
            (none : Option (List XmlEvent)).bind fun inside =>
              (charData crates "" inside).bind (urlOfText crates)
          else none) = none := by
          split <;> rfl
        rw [nothing]
        exact inductionHypothesis.trans (List.sublist_append_right _ _)
      | some inside =>
        rw [contents_append found]
        exact inductionHypothesis.append_left _

theorem listedUrls_eq_nil_of_begins {beginning events : List XmlEvent}
    (none : listedUrls crates events = []) (cut : beginning <+: events) :
    listedUrls crates beginning = [] := by
  obtain ⟨more, rfl⟩ := cut
  have fewer := listedUrls_sublist crates beginning more
  rw [none] at fewer
  exact List.sublist_nil.mp fewer

/-! ### The parser -/

/-- Inside a `loc` an event that does not end it adds its source. The names are those of the
elements that are open within the `loc`. -/
theorem locTexts_step {event : XmlEvent} {rest : List XmlEvent} {inner opened : List String}
    {next : Nat} (raw : String)
    (nested : WellNested XmlEvent.turn (inner ++ "loc" :: opened) (event :: rest))
    (goes : event.turn.depthAfter inner.length = some next) :
    ∃ inner' : List String, inner'.length = next ∧
      WellNested XmlEvent.turn (inner' ++ "loc" :: opened) rest ∧
      locTexts (event :: rest) (some (inner.count "loc", raw)) =
        locTexts rest (some (inner'.count "loc", raw ++ event.source)) := by
  cases event with
  | other source =>
    cases goes
    exact ⟨inner, rfl, nested, rfl⟩
  | opening name source =>
    cases goes
    refine ⟨name :: inner, rfl, nested, ?_⟩
    simp only [locTexts, XmlEvent.source, List.count_cons, beq_iff_eq]
    by_cases loc : name = "loc" <;> simp [loc]
  | closing name source =>
    cases inner with
    | nil => cases goes
    | cons innermost inner =>
      cases goes
      obtain ⟨same, nested⟩ := nested
      obtain rfl : innermost = name := Option.some.inj same
      refine ⟨inner, rfl, nested, ?_⟩
      by_cases loc : innermost = "loc"
      · subst loc
        simp only [locTexts, List.count_cons_self, XmlEvent.source, if_true]
      · simp only [locTexts, XmlEvent.source, List.count_cons_of_ne loc, if_neg loc]

/-- Inside a complete `loc` the parser collects its source. -/
theorem locTexts_complete {inside rest : List XmlEvent} {opened : List String}
    {name closing : String} (inner : List String) (raw : String)
    (nested : WellNested XmlEvent.turn (inner ++ "loc" :: opened)
      (inside ++ .closing name closing :: rest))
    (balanced : depthAfter XmlEvent.turn inner.length inside = some 0) :
    locTexts (inside ++ .closing name closing :: rest) (some (inner.count "loc", raw)) =
        (raw ++ sourceOf inside) :: locTexts rest none ∧
      WellNested XmlEvent.turn opened rest := by
  induction inside generalizing inner raw with
  | nil =>
    obtain rfl := List.length_eq_zero_iff.mp (Option.some.inj balanced)
    obtain ⟨same, nested⟩ := nested
    obtain rfl : "loc" = name := Option.some.inj same
    exact ⟨congrArg (· :: locTexts rest none) String.append_empty.symm, nested⟩
  | cons event inside inductionHypothesis =>
    rw [depthAfter] at balanced
    rw [List.cons_append] at nested ⊢
    obtain ⟨next, goes, balanced⟩ := Option.bind_eq_some_iff.mp balanced
    obtain ⟨inner', rfl, nested', moved⟩ := locTexts_step raw nested goes
    obtain ⟨found, after⟩ := inductionHypothesis inner' (raw ++ event.source) nested' balanced
    refine ⟨?_, after⟩
    rw [moved, found, sourceOf, String.append_assoc]

/-- Inside a `loc` that does not end it finds nothing. -/
theorem locTexts_unclosed {events : List XmlEvent} {opened : List String} (inner : List String)
    (raw : String)
    (nested : WellNested XmlEvent.turn (inner ++ "loc" :: opened) events)
    (none : contents XmlEvent.turn inner.length events = Option.none) :
    locTexts events (some (inner.count "loc", raw)) = [] := by
  induction events generalizing inner raw with
  | nil => rfl
  | cons event rest inductionHypothesis =>
    unfold contents at none
    split at none
    · cases none
    · rename_i next goes
      obtain ⟨inner', rfl, nested', moved⟩ := locTexts_step raw nested goes
      rw [moved]
      exact inductionHypothesis inner' _ nested' (Option.map_eq_none_iff.mp none)

theorem urlsOfEvents_complete {source name closing : String} {inside rest : List XmlEvent}
    {opened : List String}
    (nested : WellNested XmlEvent.turn opened
      (.opening "loc" source :: (inside ++ .closing name closing :: rest)))
    (balanced : depthAfter XmlEvent.turn 0 inside = some 0) :
    urlsOfEvents crates (.opening "loc" source :: (inside ++ .closing name closing :: rest)) =
      ((crates.unescape (sourceOf inside)).bind (urlOfText crates)).toList ++
        urlsOfEvents crates rest := by
  have texts := (locTexts_complete [] "" nested balanced).1
  have first : locTexts (.opening "loc" source :: (inside ++ .closing name closing :: rest)) none =
      sourceOf inside :: locTexts rest none := by
    rw [locTexts, if_pos rfl]
    exact texts.trans (by rw [String.empty_append])
  rw [urlsOfEvents, first, List.filterMap_cons, locUrl_eq]
  cases (crates.unescape (sourceOf inside)).bind (urlOfText crates) <;> rfl

theorem urlsOfEvents_unclosed {source : String} {rest : List XmlEvent} {opened : List String}
    (nested : WellNested XmlEvent.turn opened (.opening "loc" source :: rest))
    (none : contents XmlEvent.turn 0 rest = Option.none) :
    urlsOfEvents crates (.opening "loc" source :: rest) = [] := by
  have texts : locTexts (.opening "loc" source :: rest) Option.none = [] := by
    rw [locTexts, if_pos rfl]
    exact locTexts_unclosed [] "" nested none
  rw [urlsOfEvents, texts, List.filterMap_nil]

theorem urlsOfEvents_skip {event : XmlEvent} (other : ∀ source, event ≠ .opening "loc" source)
    (rest : List XmlEvent) : urlsOfEvents crates (event :: rest) = urlsOfEvents crates rest := by
  cases event with
  | closing name source => rfl
  | other source => rfl
  | opening name source =>
    have different : name ≠ "loc" := by
      rintro rfl
      exact other source rfl
    rw [urlsOfEvents, locTexts, if_neg different]
    rfl

theorem listedUrls_skip {event : XmlEvent} (other : ∀ source, event ≠ .opening "loc" source)
    (rest : List XmlEvent) : listedUrls crates (event :: rest) = listedUrls crates rest := by
  cases event with
  | closing name source => rfl
  | other source => rfl
  | opening name source =>
    have different : name ≠ "loc" := by
      rintro rfl
      exact other source rfl
    rw [listedUrls, if_neg different]
    rfl

theorem listedUrls_complete {source name closing : String} {inside rest : List XmlEvent}
    (balanced : depthAfter XmlEvent.turn 0 inside = some 0) :
    listedUrls crates (.opening "loc" source :: (inside ++ .closing name closing :: rest)) =
      ((charData crates "" inside).bind (urlOfText crates)).toList ++
        (listedUrls crates inside ++ listedUrls crates rest) := by
  have found : contents XmlEvent.turn 0 (inside ++ .closing name closing :: rest) = some inside :=
    contents_eq_some_iff.mpr ⟨_, rest, rfl, ⟨name, rfl⟩, balanced⟩
  rw [listedUrls, if_pos rfl, found, listedUrls_append balanced]
  rfl

theorem listedUrls_unclosed {source : String} {rest : List XmlEvent}
    (none : contents XmlEvent.turn 0 rest = Option.none) :
    listedUrls crates (.opening "loc" source :: rest) = listedUrls crates rest := by
  rw [listedUrls, none]
  split <;> rfl

/-! ### Exactness -/

/-- The condition holds of a document that breaks off. -/
theorem LocsReadSame.of_prefix {events beginning : List XmlEvent}
    (same : LocsReadSame crates events) (cut : beginning <+: events) :
    LocsReadSame crates beginning := by
  induction same generalizing beginning with
  | nil =>
    rw [List.prefix_nil.mp cut]
    exact .nil
  | skip other _ inductionHypothesis =>
    rcases List.prefix_cons_iff.mp cut with rfl | ⟨beginning, rfl, shorter⟩
    · exact .nil
    · exact .skip other (inductionHypothesis shorter)
  | unclosed none nothing =>
    rcases List.prefix_cons_iff.mp cut with rfl | ⟨beginning, rfl, shorter⟩
    · exact .nil
    · exact .unclosed (contents_eq_none_of_begins none shorter)
        (listedUrls_eq_nil_of_begins nothing shorter)
  | @complete source inside name closing rest balanced reads nothing _ inductionHypothesis =>
    rcases List.prefix_cons_iff.mp cut with rfl | ⟨beginning, rfl, shorter⟩
    · exact .nil
    · rcases List.prefix_or_prefix_of_prefix shorter
        (List.prefix_append inside (.closing name closing :: rest)) with within | ⟨more, rfl⟩
      · have unclosed := contents_eq_none_of_depthAfter balanced
        exact .unclosed (contents_eq_none_of_begins unclosed within)
          (listedUrls_eq_nil_of_begins nothing within)
      · rcases List.prefix_cons_iff.mp ((List.prefix_append_right_inj inside).mp shorter) with
          rfl | ⟨more, rfl, later⟩
        · rw [List.append_nil]
          exact .unclosed (contents_eq_none_of_depthAfter balanced) nothing
        · exact .complete balanced reads nothing (inductionHypothesis later)

theorem LocsReadSame.exact {events : List XmlEvent} {opened : List String}
    (same : LocsReadSame crates events) (nested : WellNested XmlEvent.turn opened events) :
    urlsOfEvents crates events = listedUrls crates events := by
  induction same generalizing opened with
  | nil => rfl
  | skip other _ inductionHypothesis =>
    obtain ⟨opened', nested'⟩ := nested.tail
    rw [urlsOfEvents_skip other, listedUrls_skip other]
    exact inductionHypothesis nested'
  | unclosed none nothing =>
    rw [urlsOfEvents_unclosed nested none, listedUrls_unclosed none, nothing]
  | complete balanced reads nothing _ inductionHypothesis =>
    have after := (locTexts_complete [] "" nested balanced).2
    rw [urlsOfEvents_complete nested balanced, listedUrls_complete balanced, nothing, reads,
      inductionHypothesis after, List.nil_append]

/-- A parser that is exact wherever the document breaks off is so before a complete `loc` ends, at
its end, and wherever the rest breaks off. -/
theorem complete_of_exact {source name closing : String} {inside after : List XmlEvent}
    {opened : List String}
    (nested : WellNested XmlEvent.turn opened
      (.opening "loc" source :: (inside ++ .closing name closing :: after)))
    (balanced : depthAfter XmlEvent.turn 0 inside = some 0)
    (exact : ∀ beginning,
      beginning <+: .opening "loc" source :: (inside ++ .closing name closing :: after) →
        urlsOfEvents crates beginning = listedUrls crates beginning) :
    listedUrls crates inside = [] ∧ ReadsSame crates inside ∧
      ∀ beginning, beginning <+: after →
        urlsOfEvents crates beginning = listedUrls crates beginning := by
  have nothing : listedUrls crates inside = [] := by
    have cut : XmlEvent.opening "loc" source :: inside <+:
        .opening "loc" source :: (inside ++ .closing name closing :: after) :=
      List.prefix_cons_inj _ |>.mpr (List.prefix_append _ _)
    have unclosed := contents_eq_none_of_depthAfter balanced
    have broken := exact _ cut
    rw [urlsOfEvents_unclosed (nested.of_prefix cut) unclosed,
      listedUrls_unclosed unclosed] at broken
    exact broken.symm
  have upTo : ∀ more, more <+: after →
      ((crates.unescape (sourceOf inside)).bind (urlOfText crates)).toList ++
          urlsOfEvents crates more =
        ((charData crates "" inside).bind (urlOfText crates)).toList ++ listedUrls crates more := by
    intro more shorter
    have cut : XmlEvent.opening "loc" source :: (inside ++ .closing name closing :: more) <+:
        .opening "loc" source :: (inside ++ .closing name closing :: after) :=
      List.prefix_cons_inj _ |>.mpr
        ((List.prefix_append_right_inj _).mpr (List.prefix_cons_inj _ |>.mpr shorter))
    have broken := exact _ cut
    rwa [urlsOfEvents_complete (nested.of_prefix cut) balanced, listedUrls_complete balanced,
      nothing, List.nil_append] at broken
  have reads : ReadsSame crates inside := by
    have ended := congrArg List.head? (upTo [] List.nil_prefix)
    rwa [show urlsOfEvents crates [] = [] from rfl, show listedUrls crates [] = [] from rfl,
      List.append_nil, List.append_nil, Option.head?_toList, Option.head?_toList] at ended
  refine ⟨nothing, reads, fun more shorter => ?_⟩
  have ended := upTo more shorter
  rw [reads] at ended
  exact List.append_cancel_left ended

theorem XmlEvent.eq_closing {token : XmlEvent} {name : String}
    (ends : token.turn = .ends name) : ∃ closing, token = .closing name closing := by
  cases token with
  | opening => cases ends
  | other => cases ends
  | closing _ closing =>
    cases ends
    exact ⟨closing, rfl⟩

/-- A parser that is exact wherever the document breaks off is so at the end of each `loc`. -/
theorem locsReadSame_of_exact {events : List XmlEvent} {opened : List String}
    (nested : WellNested XmlEvent.turn opened events)
    (exact : ∀ beginning, beginning <+: events →
      urlsOfEvents crates beginning = listedUrls crates beginning) :
    LocsReadSame crates events := by
  induction length : events.length using Nat.strong_induction_on generalizing events opened with
  | _ length' inductionHypothesis =>
    subst length
    cases events with
    | nil => exact .nil
    | cons event rest =>
      by_cases loc : ∃ source, event = .opening "loc" source
      · obtain ⟨source, rfl⟩ := loc
        cases found : contents XmlEvent.turn 0 rest with
        | none =>
          have nothing := exact _ (List.prefix_refl _)
          rw [urlsOfEvents_unclosed nested found, listedUrls_unclosed found] at nothing
          exact .unclosed found nothing.symm
        | some inside =>
          obtain ⟨token, after, rfl, ⟨name, ends⟩, balanced⟩ := contents_eq_some_iff.mp found
          obtain ⟨closing, rfl⟩ := XmlEvent.eq_closing ends
          obtain ⟨nothing, reads, later⟩ := complete_of_exact nested balanced exact
          have nested' := (locTexts_complete [] "" nested balanced).2
          refine .complete balanced reads nothing (inductionHypothesis _ ?_ nested' later rfl)
          simp only [List.length_cons, List.length_append]
          omega
      · have other : ∀ source, event ≠ .opening "loc" source :=
          fun source same => loc ⟨source, same⟩
        obtain ⟨opened', nested'⟩ := nested.tail
        refine .skip other (inductionHypothesis rest.length (Nat.lt_succ_self _) nested'
          (fun more shorter => ?_) rfl)
        rw [← urlsOfEvents_skip other, ← listedUrls_skip other]
        exact exact _ (List.prefix_cons_inj _ |>.mpr shorter)

/-- The parser returns exactly the listed URLs, wherever the document breaks off, if and only if
every `loc` element outside the others reads the same as its character data and no `loc` inside
another one has a URL. -/
theorem readsExactly_iff {content : String}
    (nested : WellNested XmlEvent.turn [] (crates.readEvents content)) :
    ReadsExactly crates content ↔ LocsReadSame crates (crates.readEvents content) := by
  constructor
  · exact fun exactly => locsReadSame_of_exact nested exactly.cutOff
  · intro same
    exact {
      whole := same.exact nested
      cutOff := fun _ cut => (same.of_prefix cut).exact (nested.of_prefix cut) }

end Reading

/-! ### The small site -/

/-- A sitemap whose entries are text. -/
def sampleTextSitemap : String :=
  "<urlset><loc>https://a.example/</loc><loc>https://a.example/#top</loc></urlset>"

/-- A sitemap whose entry is a CDATA section. -/
def sampleCdataSitemap : String := "<urlset><loc><![CDATA[https://a.example/]]></loc></urlset>"

theorem readsExactly_iff_sample : ReadsExactly sampleLinkCrates sampleTextSitemap ↔
    LocsReadSame sampleLinkCrates (sampleLinkCrates.readEvents sampleTextSitemap) :=
  readsExactly_iff ⟨rfl, rfl, rfl, trivial⟩

/-- The page in the CDATA section is listed and not returned. -/
theorem cdata_entry_missed : parseSitemap sampleLinkCrates sampleCdataSitemap = [] ∧
    listedUrls sampleLinkCrates (sampleLinkCrates.readEvents sampleCdataSitemap) = [.page] := by
  decide +kernel

end PoliteCrawler
