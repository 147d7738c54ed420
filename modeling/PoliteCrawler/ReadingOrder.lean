/-
This file says when the clean text of a page has its pieces in the order of the
document.

The extractor walks the elements in document order and takes the text nodes directly
under each. A text that follows a child element is so taken before the texts of that
element. No piece is lost or repeated, but a paragraph with a word in bold in the
middle is put together in another order than it is read in.
-/

import PoliteCrawler.HtmlParser
import PoliteCrawler.LeafOrder

namespace PoliteCrawler

open LeafOrder
open scoped List

variable {Url : Type} (crates : Crates Url)

/-! ### The visible texts of a document -/

/-- The piece of a text node: its trimmed text up to the first angle bracket. A blank text has
none, and neither has one whose parent's text is not shown. -/
def visiblePiece (shown : Bool) (contents : String) : Option String :=
  let trimmed := trim crates.unicode contents
  if shown && !trimmed.isEmpty then some (cutAtAngle trimmed) else none

mutual

/-- The pieces of the text nodes of a node, in document order. -/
def HtmlNode.visiblePieces (shown : Bool) : HtmlNode → List String
  | .element name attributes children =>
    visiblePiecesOf (isCleanTag ⟨name, attributes, children⟩) children
  | .text contents => (visiblePiece crates shown contents).toList
  | .other => []

/-- The pieces of the text nodes of sibling nodes, in document order. -/
def visiblePiecesOf (shown : Bool) : List HtmlNode → List String
  | [] => []
  | node :: rest => node.visiblePieces shown ++ visiblePiecesOf shown rest

end

/-- Pieces with a space after each, trimmed. -/
def joinPieces (pieces : List String) : String :=
  trim crates.unicode (String.join (pieces.map (· ++ " ")))

/-- The visible text in the order of the document. The root of a document is no element. -/
def readingTextOf (doc : Html) : String :=
  joinPieces crates (visiblePiecesOf crates false doc.nodes)

mutual

/-- The pieces of a node as they are nested in its elements, before those of `rest`. -/
def HtmlNode.visibleForest (shown : Bool) : HtmlNode → Forest String → Forest String
  | .element name attributes children, rest =>
    .node (visibleForestOf (isCleanTag ⟨name, attributes, children⟩) children) rest
  | .text contents, rest =>
    match visiblePiece crates shown contents with
    | some piece => .leaf piece rest
    | none => rest
  | .other, rest => rest

def visibleForestOf (shown : Bool) : List HtmlNode → Forest String
  | [] => .nil
  | node :: rest => node.visibleForest shown (visibleForestOf shown rest)

end

/-- The pieces of a document as they are nested in its elements. -/
def Html.visibleForest (doc : Html) : Forest String := visibleForestOf crates false doc.nodes

/-- In no element a visible text comes after a child element with visible text in it. -/
def TextFirst (doc : Html) : Prop := (doc.visibleForest crates).LeavesFirst

instance (doc : Html) : Decidable (TextFirst crates doc) :=
  inferInstanceAs (Decidable (Forest.LeavesFirst _))

/-- The clean text of a document is its visible text in the order of the document, and stays so
with other texts in the place of its own. -/
def ReadsInOrder (doc : Html) : Prop :=
  ∀ other : Html, (other.visibleForest crates).shape = (doc.visibleForest crates).shape →
    cleanTextOf crates other = readingTextOf crates other

/-! ### The order of the document -/

section Orders

variable {crates}

mutual

theorem HtmlNode.leaves_visibleForest (node : HtmlNode) (shown : Bool) (rest : Forest String) :
    (node.visibleForest crates shown rest).leaves =
      node.visiblePieces crates shown ++ rest.leaves := by
  cases node with
  | element name attributes children =>
    rw [HtmlNode.visibleForest, Forest.leaves, leaves_visibleForestOf, HtmlNode.visiblePieces]
  | text contents =>
    rw [HtmlNode.visibleForest, HtmlNode.visiblePieces]
    cases visiblePiece crates shown contents <;> rfl
  | other => rfl

theorem leaves_visibleForestOf (nodes : List HtmlNode) (shown : Bool) :
    (visibleForestOf crates shown nodes).leaves = visiblePiecesOf crates shown nodes := by
  cases nodes with
  | nil => rfl
  | cons node rest =>
    rw [visibleForestOf, node.leaves_visibleForest, leaves_visibleForestOf rest, visiblePiecesOf]

end

/-- Texts directly under the root of a document are not visible. -/
theorem own_visibleForestOf_false (nodes : List HtmlNode) :
    (visibleForestOf crates false nodes).own = [] := by
  induction nodes with
  | nil => rfl
  | cons node rest inductionHypothesis => cases node <;> exact inductionHypothesis

/-! ### The order of the extractor -/

/-- The pieces of the text nodes directly under an element. -/
def Element.pieces (crates : Crates Url) (element : Element) : List String :=
  element.texts.filterMap (visiblePiece crates true)

theorem own_visibleForestOf_true (nodes : List HtmlNode) (name : String)
    (attributes : List (String × String)) :
    (visibleForestOf crates true nodes).own = Element.pieces crates ⟨name, attributes, nodes⟩ := by
  induction nodes with
  | nil => rfl
  | cons node rest inductionHypothesis =>
    cases node with
    | element _ _ _ => exact inductionHypothesis
    | other => exact inductionHypothesis
    | text contents =>
      have pieces : Element.pieces crates ⟨name, attributes, .text contents :: rest⟩ =
          (contents :: Element.texts ⟨name, attributes, rest⟩).filterMap
            (visiblePiece crates true) := rfl
      rw [pieces, List.filterMap_cons, visibleForestOf, HtmlNode.visibleForest]
      cases visiblePiece crates true contents with
      | none => exact inductionHypothesis
      | some piece => exact congrArg (piece :: ·) inductionHypothesis

mutual

theorem HtmlNode.nested_visibleForest (node : HtmlNode) (shown : Bool) (rest : Forest String) :
    (node.visibleForest crates shown rest).nested =
      (node.elements.filter isCleanTag).flatMap (Element.pieces crates) ++ rest.nested := by
  cases node with
  | element name attributes children =>
    rw [HtmlNode.visibleForest, Forest.nested, nested_visibleForestOf, HtmlNode.elements]
    cases clean : isCleanTag ⟨name, attributes, children⟩ with
    | true =>
      rw [own_visibleForestOf_true children name attributes, List.filter_cons_of_pos clean,
        List.flatMap_cons]
    | false =>
      rw [own_visibleForestOf_false, List.filter_cons_of_neg (Bool.eq_false_iff.mp clean),
        List.nil_append]
  | text contents =>
    rw [HtmlNode.visibleForest]
    cases visiblePiece crates shown contents <;> rfl
  | other => rfl

theorem nested_visibleForestOf (nodes : List HtmlNode) (shown : Bool) :
    (visibleForestOf crates shown nodes).nested =
      ((elementsOf nodes).filter isCleanTag).flatMap (Element.pieces crates) := by
  cases nodes with
  | nil => rfl
  | cons node rest =>
    rw [visibleForestOf, node.nested_visibleForest, nested_visibleForestOf rest, elementsOf,
      List.filter_append, List.flatMap_append]

end

/-- What the extractor pushes for an element: its pieces, a space after each. -/
theorem spaced_pieces (element : Element) :
    (((element.texts.map (trim crates.unicode)).filter fun text => !text.isEmpty).map
      fun text => cutAtAngle text ++ " ") = (Element.pieces crates element).map (· ++ " ") := by
  rw [Element.pieces]
  induction element.texts with
  | nil => rfl
  | cons contents rest inductionHypothesis =>
    rw [List.map_cons, List.filterMap_cons, visiblePiece]
    cases blank : (trim crates.unicode contents).isEmpty <;>
      simp only [blank, List.filter_cons, List.map_cons, inductionHypothesis, Bool.not_true,
        Bool.not_false, Bool.and_false, Bool.and_true, if_true, Bool.false_eq_true, if_false]

/-- The clean text takes the texts of an element before those of the elements in it. -/
theorem cleanTextOf_eq (doc : Html) :
    cleanTextOf crates doc = joinPieces crates (doc.visibleForest crates).ownFirst := by
  have taken : (doc.visibleForest crates).ownFirst =
      (doc.select isCleanTag).flatMap (Element.pieces crates) := by
    rw [Forest.ownFirst, Html.visibleForest, own_visibleForestOf_false, nested_visibleForestOf,
      List.nil_append]
    rfl
  rw [cleanTextOf, joinPieces, taken, List.map_flatMap]
  exact congrArg (fun texts => trim crates.unicode (String.join texts))
    (List.flatMap_congr fun element _ => spaced_pieces element)

theorem readingTextOf_eq (doc : Html) :
    readingTextOf crates doc = joinPieces crates (doc.visibleForest crates).leaves := by
  rw [Html.visibleForest, leaves_visibleForestOf]
  rfl

/-- The clean text has the piece of each visible text node once. -/
theorem exists_perm_cleanTextOf (doc : Html) :
    ∃ pieces, pieces ~ visiblePiecesOf crates false doc.nodes ∧
      cleanTextOf crates doc = joinPieces crates pieces := by
  refine ⟨(doc.visibleForest crates).ownFirst, ?_, cleanTextOf_eq doc⟩
  rw [← leaves_visibleForestOf]
  exact Forest.ownFirst_perm_leaves _

/-! ### Documents with given pieces -/

/-- The text nodes and elements of a forest. -/
def nodesOf : Forest String → List HtmlNode
  | .nil => []
  | .leaf contents rest => .text contents :: nodesOf rest
  | .node inside rest => .element "div" [] (nodesOf inside) :: nodesOf rest

theorem visibleForestOf_nodesOf {forest : Forest String}
    (plain : ∀ contents ∈ forest.leaves, visiblePiece crates true contents = some contents) :
    visibleForestOf crates true (nodesOf forest) = forest := by
  induction forest with
  | nil => rfl
  | leaf contents rest restHypothesis =>
    obtain ⟨head, tail⟩ := List.forall_mem_cons.mp plain
    rw [nodesOf, visibleForestOf, HtmlNode.visibleForest, head, restHypothesis tail]
  | node inside rest insideHypothesis restHypothesis =>
    obtain ⟨within, after⟩ := List.forall_mem_append.mp plain
    have clean : isCleanTag ⟨"div", [], nodesOf inside⟩ = true := rfl
    rw [nodesOf, visibleForestOf, HtmlNode.visibleForest, clean, insideHypothesis within,
      restHypothesis after]

/-- A document can have any forest of pieces without pieces on its first level. -/
theorem visibleForest_nodesOf {forest : Forest String} (none : forest.own = [])
    (plain : ∀ contents ∈ forest.leaves, visiblePiece crates true contents = some contents) :
    (Html.mk (nodesOf forest)).visibleForest crates = forest := by
  rw [Html.visibleForest]
  induction forest with
  | nil => rfl
  | leaf contents rest _ => cases none
  | node inside rest _ restHypothesis =>
    obtain ⟨within, after⟩ := List.forall_mem_append.mp plain
    have clean : isCleanTag ⟨"div", [], nodesOf inside⟩ = true := rfl
    rw [nodesOf, visibleForestOf, HtmlNode.visibleForest, clean, visibleForestOf_nodesOf within,
      restHypothesis none after]

/-! ### Labels -/

/-- The character of a label. -/
def labelChar : Bool → Char
  | true => 'a'
  | false => 'b'

theorem labelChar_injective : Function.Injective labelChar := by
  intro first second same
  revert first second
  decide

def labelText (label : Bool) : String := String.singleton (labelChar label)

/-- The label characters of a text. -/
def labelChars (text : String) : List Char :=
  text.toList.filter fun char => char = 'a' ∨ char = 'b'

theorem filter_dropWhile {drops keeps : Char → Bool}
    (apart : ∀ char, keeps char = true → drops char = false) (chars : List Char) :
    (chars.dropWhile drops).filter keeps = chars.filter keeps := by
  induction chars with
  | nil => rfl
  | cons char rest inductionHypothesis =>
    cases dropped : drops char with
    | false => rw [List.dropWhile_cons_of_neg (Bool.eq_false_iff.mp dropped)]
    | true =>
      have left : keeps char = false := by
        by_contra kept
        cases (apart char (Bool.eq_true_of_not_eq_false kept)).symm.trans dropped
      rw [List.dropWhile_cons_of_pos dropped, inductionHypothesis,
        List.filter_cons_of_neg (Bool.eq_false_iff.mp left)]

section Visible

variable (visible : ∀ label, crates.unicode.isWhitespace (labelChar label) = false)

include visible

theorem visiblePiece_labelText (label : Bool) :
    visiblePiece crates true (labelText label) = some (labelText label) := by
  have whole : trim crates.unicode (labelText label) = labelText label := by
    simp [trim, labelText, visible label]
  have plain : cutAtAngle (labelText label) = labelText label := by
    cases label <;> rfl
  have filled : (labelText label).isEmpty = false := by
    cases label <;> rfl
  simp only [visiblePiece, whole, plain, filled, Bool.not_false, Bool.and_true, if_true]

/-- Trimming takes no label away. -/
theorem labelChars_trim (text : String) :
    labelChars (trim crates.unicode text) = labelChars text := by
  have apart : ∀ char, decide (char = 'a' ∨ char = 'b') = true →
      crates.unicode.isWhitespace char = false := by
    intro char label
    rcases of_decide_eq_true label with rfl | rfl
    · exact visible true
    · exact visible false
  rw [labelChars, trim, String.toList_ofList, List.filter_reverse, filter_dropWhile apart,
    List.filter_reverse, List.reverse_reverse, filter_dropWhile apart, labelChars]

theorem labelChars_joinPieces (labels : List Bool) :
    labelChars (joinPieces crates (labels.map labelText)) = labels.map labelChar := by
  rw [joinPieces, labelChars_trim visible, labelChars, String.toList_join]
  induction labels with
  | nil => rfl
  | cons label rest inductionHypothesis =>
    rw [List.map_cons, List.map_cons, List.flatMap_cons, List.filter_append, inductionHypothesis]
    cases label <;> rfl

/-! ### The condition -/

/-- The clean text is in the order of the document if and only if in no element a visible text
comes after a child element with visible text in it. -/
theorem readsInOrder_iff (doc : Html) : ReadsInOrder crates doc ↔ TextFirst crates doc := by
  constructor
  · intro reads
    refine (Forest.leavesFirst_iff _).mpr fun labelled same => ?_
    have none : (labelled.map labelText).own = [] := by
      rw [Forest.own_map, List.map_eq_nil_iff]
      exact Forest.own_eq_nil_of_shape same.symm (own_visibleForestOf_false doc.nodes)
    have placed : (Html.mk (nodesOf (labelled.map labelText))).visibleForest crates =
        labelled.map labelText := by
      refine visibleForest_nodesOf none fun contents member => ?_
      rw [Forest.leaves_map] at member
      obtain ⟨label, -, rfl⟩ := List.mem_map.mp member
      exact visiblePiece_labelText visible label
    have equal := reads ⟨nodesOf (labelled.map labelText)⟩
      (by rw [placed, Forest.shape_map, same])
    rw [cleanTextOf_eq, readingTextOf_eq, placed, Forest.ownFirst_map, Forest.leaves_map] at equal
    have chars := congrArg labelChars equal
    rw [labelChars_joinPieces visible, labelChars_joinPieces visible] at chars
    exact List.map_injective_iff.mpr labelChar_injective chars.symm
  · intro early other same
    rw [cleanTextOf_eq, readingTextOf_eq,
      (Forest.leavesFirst_of_shape same.symm early).leaves_eq]

end Visible

end Orders

/-- A page whose body is one paragraph. -/
def paragraphPage (contents : List HtmlNode) : Html :=
  ⟨[.element "html" [] [.element "head" [] [], .element "body" [] [.element "p" [] contents]]]⟩

/-- `Read the <b>manual</b> first.` -/
def mixedPage : Html :=
  paragraphPage [.text "Read the ", .element "b" [] [.text "manual"], .text " first."]

theorem readsInOrder_iff_sample : ¬ ReadsInOrder sampleCrates mixedPage ∧
    ReadsInOrder sampleCrates (paragraphPage [.text "Read ", .element "b" [] [.text "this"]]) := by
  have visible : ∀ label, sampleCrates.unicode.isWhitespace (labelChar label) = false := by decide
  constructor
  · rw [readsInOrder_iff visible]
    decide +kernel
  · rw [readsInOrder_iff visible]
    decide +kernel

/-- A word in bold comes last. -/
theorem bold_word_last : cleanTextOf sampleCrates mixedPage = "Read the first. manual" ∧
    readingTextOf sampleCrates mixedPage = "Read the manual first." := by
  decide +kernel

end PoliteCrawler
