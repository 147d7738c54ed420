/-
This file builds the theory of elements with a beginning and an end in a sequence
of tokens.

The contents of an element are the tokens up to the one that ends it, the tokens
of the elements within it among them. What they are is settled by the time the
element ends: the tokens that follow are not looked at, and a sequence that is cut
off earlier has no contents for it.
-/

import Mathlib.Data.List.Infix

namespace MatchingEnds

/-- What a token does: it begins an element of a name, ends one, or does neither. -/
inductive Turn (Name : Type*)
  | begins (name : Name)
  | ends (name : Name)
  | stays

/-- The number of open elements after a token; `none` when it ends one that is not open. -/
def Turn.depthAfter {Name : Type*} : Turn Name → Nat → Option Nat
  | .begins _, depth => some (depth + 1)
  | .ends _, 0 => none
  | .ends _, depth + 1 => some depth
  | .stays, depth => some depth

variable {Token Name : Type*} (turn : Token → Turn Name)

/-- Every end names the element that was begun last and not ended. The names are those of the
elements that are open at the start, the innermost first. -/
def WellNested : List Name → List Token → Prop
  | _, [] => True
  | opened, token :: rest =>
    match turn token with
    | .begins name => WellNested (name :: opened) rest
    | .ends name => opened.head? = some name ∧ WellNested opened.tail rest
    | .stays => WellNested opened rest

/-- The number of open elements after the tokens. -/
def depthAfter : Nat → List Token → Option Nat
  | depth, [] => some depth
  | depth, token :: rest => ((turn token).depthAfter depth).bind fun depth => depthAfter depth rest

/-- The tokens before the end of an element, inside of which `depth` more are open. -/
def contents : Nat → List Token → Option (List Token)
  | _, [] => none
  | depth, token :: rest =>
    match (turn token).depthAfter depth with
    | none => some []
    | some depth => (contents depth rest).map (token :: ·)

variable {turn} {depth : Nat} {tokens inside : List Token}

theorem Turn.depthAfter_eq_none_iff {step : Turn Name} {depth : Nat} :
    step.depthAfter depth = none ↔ (∃ name, step = .ends name) ∧ depth = 0 := by
  cases step with
  | begins name => simp [Turn.depthAfter]
  | stays => simp [Turn.depthAfter]
  | ends name => cases depth <;> simp [Turn.depthAfter]

/-- Elements that are open further out make no difference. -/
theorem Turn.depthAfter_add {step : Turn Name} {depth next : Nat}
    (goes : step.depthAfter depth = some next) (more : Nat) :
    step.depthAfter (depth + more) = some (next + more) := by
  cases step with
  | begins name =>
    cases goes
    exact congrArg some (Nat.add_right_comm depth more 1)
  | stays =>
    cases goes
    rfl
  | ends name =>
    cases depth with
    | zero => cases goes
    | succ depth =>
      cases goes
      rw [Nat.add_right_comm]
      rfl

/-! ### Contents -/

/-- The contents end before the first token that ends an element and has as many begun before it as
ended. -/
theorem contents_eq_some_iff : contents turn depth tokens = some inside ↔
    ∃ token after, tokens = inside ++ token :: after ∧ (∃ name, turn token = .ends name) ∧
      depthAfter turn depth inside = some 0 := by
  induction tokens generalizing depth inside with
  | nil => simp [contents]
  | cons first rest inductionHypothesis =>
    unfold contents
    split
    · rename_i last
      constructor
      · rintro ⟨⟩
        obtain ⟨ends, rfl⟩ := Turn.depthAfter_eq_none_iff.mp last
        exact ⟨first, rest, rfl, ends, rfl⟩
      · rintro ⟨token, after, same, ends, closes⟩
        cases inside with
        | nil => rfl
        | cons head tail =>
          obtain ⟨rfl, -⟩ := List.cons.inj same
          rw [depthAfter, last] at closes
          cases closes
    · rename_i next goes
      rw [Option.map_eq_some_iff]
      constructor
      · rintro ⟨tail, found, rfl⟩
        obtain ⟨token, after, rfl, ends, closes⟩ := inductionHypothesis.mp found
        refine ⟨token, after, rfl, ends, ?_⟩
        rw [depthAfter, goes]
        exact closes
      · rintro ⟨token, after, same, ends, closes⟩
        cases inside with
        | nil =>
          obtain ⟨rfl, -⟩ := List.cons.inj same
          have stops := Turn.depthAfter_eq_none_iff.mpr ⟨ends, Option.some.inj closes⟩
          cases stops.symm.trans goes
        | cons head tail =>
          obtain ⟨rfl, rfl⟩ := List.cons.inj same
          rw [depthAfter, goes] at closes
          exact ⟨tail, inductionHypothesis.mpr ⟨token, after, rfl, ends, closes⟩, rfl⟩

/-- Contents do not depend on what comes after the end. -/
theorem contents_append (found : contents turn depth tokens = some inside) (more : List Token) :
    contents turn depth (tokens ++ more) = some inside := by
  obtain ⟨token, after, rfl, ends, closes⟩ := contents_eq_some_iff.mp found
  exact contents_eq_some_iff.mpr ⟨token, after ++ more, by simp, ends, closes⟩

/-- What is cut off before the end has no contents. -/
theorem contents_eq_none_of_begins {beginning : List Token}
    (none : contents turn depth tokens = none) (cut : beginning <+: tokens) :
    contents turn depth beginning = Option.none := by
  obtain ⟨more, rfl⟩ := cut
  rw [Option.eq_none_iff_forall_ne_some] at none ⊢
  exact fun inside found => none inside (contents_append found more)

/-- While nothing ends more than was open, there is no end. -/
theorem contents_eq_none_of_depthAfter {deeper : Nat}
    (balanced : depthAfter turn depth tokens = some deeper) :
    contents turn depth tokens = none := by
  induction tokens generalizing depth with
  | nil => rfl
  | cons token rest inductionHypothesis =>
    rw [depthAfter] at balanced
    obtain ⟨next, goes, balanced⟩ := Option.bind_eq_some_iff.mp balanced
    rw [contents, goes]
    dsimp only
    rw [inductionHypothesis balanced]
    rfl

/-- Tokens that end more elements than `depth` have the end of the element at that depth. -/
theorem exists_contents {more : Nat}
    (balanced : depthAfter turn (depth + (more + 1)) tokens = some 0) :
    ∃ inside, contents turn depth tokens = some inside := by
  induction tokens generalizing depth with
  | nil => cases balanced
  | cons token rest inductionHypothesis =>
    unfold contents
    cases stepped : (turn token).depthAfter depth with
    | none => exact ⟨[], rfl⟩
    | some next =>
      rw [depthAfter, Turn.depthAfter_add stepped] at balanced
      obtain ⟨inside, found⟩ := inductionHypothesis balanced
      exact ⟨token :: inside, by simp only [found, Option.map_some]⟩

/-! ### Nesting -/

theorem WellNested.tail {opened : List Name} {token : Token} {rest : List Token}
    (nested : WellNested turn opened (token :: rest)) :
    ∃ opened, WellNested turn opened rest := by
  unfold WellNested at nested
  split at nested
  · exact ⟨_, nested⟩
  · exact ⟨_, nested.2⟩
  · exact ⟨_, nested⟩

theorem WellNested.of_prefix {opened : List Name} {beginning : List Token}
    (nested : WellNested turn opened tokens) (cut : beginning <+: tokens) :
    WellNested turn opened beginning := by
  induction tokens generalizing opened beginning with
  | nil =>
    rw [List.prefix_nil.mp cut]
    trivial
  | cons token rest inductionHypothesis =>
    rcases List.prefix_cons_iff.mp cut with rfl | ⟨beginning, rfl, shorter⟩
    · trivial
    · unfold WellNested at nested ⊢
      split at nested
      · exact inductionHypothesis nested shorter
      · exact ⟨nested.1, inductionHypothesis nested.2 shorter⟩
      · exact inductionHypothesis nested shorter

end MatchingEnds
