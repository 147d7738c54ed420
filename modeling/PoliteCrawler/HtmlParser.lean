/-
This file models what a worker reads off an HTML document: the visible text, the
title, the description, the outbound links, and the keyword test.

A document is a tree of nodes. `select` visits the elements in document order
and keeps those of a selector, as the `scraper` crate does; the text nodes a
function looks at are the children of the elements it selects.
-/

import PoliteCrawler.LinkFetcher

namespace PoliteCrawler

/-! ### Elements -/

/-- An element of a document. -/
structure Element where
  name : String
  attributes : List (String × String)
  children : List HtmlNode

mutual

/-- The element of a node and those below it, in document order. -/
def HtmlNode.elements : HtmlNode → List Element
  | .element name attributes children => ⟨name, attributes, children⟩ :: elementsOf children
  | .text _ => []
  | .other => []

def elementsOf : List HtmlNode → List Element
  | [] => []
  | node :: rest => node.elements ++ elementsOf rest

end

def Html.select (doc : Html) (selector : Element → Bool) : List Element :=
  (elementsOf doc.nodes).filter selector

def Element.attr (element : Element) (name : String) : Option String :=
  (element.attributes.find? fun pair => pair.1 = name).map Prod.snd

/-- The contents of the text nodes directly under an element. -/
def Element.texts (element : Element) : List String :=
  element.children.filterMap fun child =>
    match child with
    | .text contents => some contents
    | _ => none

/-! ### Text -/

section Text

variable (unicode : Unicode)

/-- `text.trim()` -/
def trim (text : String) : String :=
  String.ofList ((text.toList.dropWhile unicode.isWhitespace).reverse.dropWhile
    unicode.isWhitespace).reverse

/-- The pieces of a text between the characters of a kind; empty pieces are left out. -/
def splitPieces (separates : Char → Bool) (text : String) : List String :=
  ((text.toList.splitOnP separates).filter fun piece => !piece.isEmpty).map String.ofList

def splitWhitespace (text : String) : List String := splitPieces unicode.isWhitespace text

/-- A text up to its first angle bracket. -/
def cutAtAngle (text : String) : String :=
  String.ofList (text.toList.takeWhile fun char => char ≠ '<' ∧ char ≠ '>')

end Text

/-! ### Parsing a page -/

/-- What is read off a page. -/
structure ParsedPage (Url : Type) where
  title : Option String
  description : Option String
  cleanText : Option String
  outboundLinks : List Url
  url : Url

section Parse

variable {Url : Type} (crates : Crates Url)

/-- `*:not(script):not(style):not(head):not(noscript):not(meta)` -/
def isCleanTag (element : Element) : Bool :=
  element.name ∉ ["script", "style", "head", "noscript", "meta"]

def cleanTextOf (doc : Html) : String :=
  trim crates.unicode (String.join ((doc.select isCleanTag).flatMap fun element =>
    ((element.texts.map (trim crates.unicode)).filter fun text => !text.isEmpty).map
      fun text => cutAtAngle text ++ " "))

/-- The link of an `href`, seen from the page. Only an absolute link has its scheme looked at. -/
def outboundUrl [DecidableEq Url] (page : Url) (href : String) : Option Url :=
  match crates.url.parse href with
  | .ok url =>
    if crates.url.scheme url = "http" ∨ crates.url.scheme url = "https" then
      keepOther (crates.url.withoutFragment url)
    else none
  | .error .relativeUrlWithoutBase =>
    match crates.url.join page href with
    | .ok url => keepOther (crates.url.withoutFragment url)
    | .error _ => none
  | .error .other => none
where
  keepOther (url : Url) : Option Url := if url = page then none else some url

def outboundUrls [DecidableEq Url] (page : Url) (doc : Html) : List Url :=
  (doc.select fun element => element.name = "a").filterMap fun element =>
    (element.attr "href").bind (outboundUrl crates page)

/-- The text of the first `title`, up to a `<`; an empty title is no title. -/
def titleOf (doc : Html) : Option String :=
  let titles := (doc.select fun element => element.name = "title").head?.map fun element =>
    let fullText := " ".intercalate
      ((element.texts.map (trim crates.unicode)).filter fun text => !text.isEmpty)
    if '<' ∈ fullText.toList then
      trim crates.unicode (String.ofList (fullText.toList.takeWhile (· ≠ '<')))
    else fullText
  titles.filter fun title => !title.isEmpty

def descriptionOf (doc : Html) : Option String :=
  (doc.select fun element => element.name = "meta" && element.attr "name" = some "description").head?
    |>.bind fun element => element.attr "content"

def tokenize (text : String) : List String :=
  (splitPieces (fun char => !crates.unicode.isAlphanumeric char) text).map crates.unicode.toLowercase

def isKeywordsInHtml (cleanText : Option String) (keywords : List String) : Bool :=
  match cleanText with
  | none => false
  | some text =>
    let tokenizedText := tokenize crates text
    keywords.any fun keyword => crates.unicode.toLowercase keyword ∈ tokenizedText

/-- The keywords; a file that cannot be read has none. -/
def keywordsOf (keywordsFile : Option String) : List String :=
  (keywordsFile.map (splitWhitespace crates.unicode)).getD []

/-- `ParsedPage::parse`. The flag says whether the page is to be saved. -/
def ParsedPage.parse [DecidableEq Url] (keywordsFile : Option String)
    (data : NotParsedPageData Url) : Bool × ParsedPage Url :=
  let doc := crates.parseDocument data.content
  let cleanText := some (cleanTextOf crates doc)
  let keywords := keywordsOf crates keywordsFile
  if !keywords.isEmpty && !isKeywordsInHtml crates cleanText keywords then
    (false, {
      title := none
      description := none
      cleanText := none
      outboundLinks := outboundUrls crates data.url doc
      url := data.url })
  else
    (true, {
      title := titleOf crates doc
      description := descriptionOf doc
      cleanText
      outboundLinks := outboundUrls crates data.url doc
      url := data.url })

def convertParsedPageToSaveData (page : ParsedPage Url) : ParsedPageSaveData where
  title := page.title
  description := page.description
  cleanText := page.cleanText
  url := crates.url.asStr page.url

/-- A parsed page keeps the URL of its data. -/
@[simp] theorem parse_url [DecidableEq Url] (keywordsFile : Option String)
    (data : NotParsedPageData Url) :
    (ParsedPage.parse crates keywordsFile data).2.url = data.url := by
  simp only [ParsedPage.parse]
  split <;> rfl

/-! ### The empty document -/

/-- The document of the empty text has neither text nor links. -/
structure BlankDocument : Prop where
  noText : ∀ element ∈ elementsOf (crates.parseDocument "").nodes, element.texts = []
  noLinks : ∀ element ∈ elementsOf (crates.parseDocument "").nodes, element.name ≠ "a"

variable {crates}

theorem BlankDocument.cleanTextOf (blank : BlankDocument crates) :
    cleanTextOf crates (crates.parseDocument "") = "" := by
  have nothing : ((crates.parseDocument "").select isCleanTag).flatMap (fun element =>
      ((element.texts.map (trim crates.unicode)).filter fun text => !text.isEmpty).map
        fun text => cutAtAngle text ++ " ") = [] := by
    refine List.flatMap_eq_nil_iff.mpr fun element selected => ?_
    rw [blank.noText element (List.mem_filter.mp selected).1]
    rfl
  rw [PoliteCrawler.cleanTextOf, nothing]
  rfl

theorem BlankDocument.outboundUrls [DecidableEq Url] (blank : BlankDocument crates) (page : Url) :
    outboundUrls crates page (crates.parseDocument "") = [] := by
  have nothing : ((crates.parseDocument "").select fun element => element.name = "a") = [] := by
    refine List.filter_eq_nil_iff.mpr fun element member => ?_
    simpa using blank.noLinks element member
  rw [PoliteCrawler.outboundUrls, nothing]
  rfl

/-- A page without text is to be saved only when there are no keywords. -/
theorem BlankDocument.parse_iff [DecidableEq Url] (blank : BlankDocument crates)
    (keywordsFile : Option String) (url : Url) :
    (ParsedPage.parse crates keywordsFile ⟨url, ""⟩).1 = true ↔
      keywordsOf crates keywordsFile = [] := by
  have none : ∀ keywords, isKeywordsInHtml crates (some "") keywords = false := by
    intro keywords
    refine List.any_eq_false.mpr fun keyword _ => ?_
    have tokens : tokenize crates "" = [] := rfl
    rw [tokens]
    simp
  simp only [ParsedPage.parse, blank.cleanTextOf, none]
  cases keywordsOf crates keywordsFile <;> simp

end Parse

end PoliteCrawler
