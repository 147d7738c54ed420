/-
This file builds the theory of infinite runs of a partial step function: what
comes to an end in them, what happens in them, and what holds from some time on.

The progress rules are for a rank in a well-founded order that no permitted step
raises and that the helpful steps lower. The helpful steps then come to an end
in every run. When they are taken again and again until a goal is met, the goal
is met; and when one of them is always possible short of the goal, the goal can
be reached. The order need not be that of the numbers, so a step may put any
number of smaller steps in the place of itself.
-/

import PoliteCrawler.Transition
import Mathlib.Data.Fintype.Order
import Mathlib.Data.Prod.Lex
import Mathlib.Order.OrderIsoNat

namespace Transition

variable {State Action : Type*} {step : Action → State → Option State}
  {permitted : State → Action → Prop}

/-! ### Infinite runs -/

/-- An infinite run whose steps are each permitted where they are taken. -/
structure PathWith (step : Action → State → Option State)
    (permitted : State → Action → Prop) where
  state : ℕ → State
  action : ℕ → Action
  allowed : ∀ time, permitted (state time) (action time)
  moves : ∀ time, step (action time) (state time) = some (state (time + 1))

/-- An infinite run of any steps. -/
abbrev Path (step : Action → State → Option State) := PathWith step fun _ _ => True

namespace PathWith

variable (path : PathWith step permitted)

/-- It holds from some time on. -/
def Settles (holds : State → Prop) : Prop :=
  ∃ time, ∀ later, time ≤ later → holds (path.state later)

/-- It happens again and again. -/
def Recurs (happens : State → Action → Prop) : Prop :=
  ∀ time, ∃ later, time ≤ later ∧ happens (path.state later) (path.action later)

/-- It happens only finitely often. -/
def Ceases (happens : State → Action → Prop) : Prop :=
  ∃ time, ∀ later, time ≤ later → ¬ happens (path.state later) (path.action later)

variable {path}

/-- What every permitted step keeps lasts. -/
theorem lasts {holds : State → Prop} {time : ℕ} (now : holds (path.state time))
    (keeps : ∀ state action next, holds state → permitted state action →
      step action state = some next → holds next) :
    ∀ later, time ≤ later → holds (path.state later) := by
  intro later after
  induction later, after using Nat.le_induction with
  | base => exact now
  | succ later _ inductionHypothesis =>
    exact keeps _ _ _ inductionHypothesis (path.allowed later) (path.moves later)

/-- Every state of a run is reached from the first one. -/
theorem reaches (path : PathWith step permitted) (time : ℕ) :
    ReachesWith step permitted (path.state 0) (path.state time) :=
  have here : ReachesWith step permitted (path.state 0) (path.state 0) := .start
  lasts here
    (fun _ _ _ reached allowed moved => .move reached allowed moved) time (Nat.zero_le time)

/-- The run from a time on, whose steps are known to be permitted. -/
def drop {others : State → Action → Prop} (path : PathWith step permitted) (time : ℕ)
    (allowed : ∀ later, time ≤ later → others (path.state later) (path.action later)) :
    PathWith step others where
  state later := path.state (time + later)
  action later := path.action (time + later)
  allowed later := allowed _ (Nat.le_add_right time later)
  moves later := path.moves (time + later)

section Drop

variable {others : State → Action → Prop} {time : ℕ}
  {allowed : ∀ later, time ≤ later → others (path.state later) (path.action later)}

/-- What settles from a time on settles. -/
theorem settles_of_drop {holds : State → Prop}
    (settled : (path.drop time allowed).Settles holds) : path.Settles holds := by
  obtain ⟨last, always⟩ := settled
  refine ⟨time + last, fun later after => ?_⟩
  obtain ⟨more, rfl⟩ := Nat.exists_eq_add_of_le (Nat.le_of_add_right_le after)
  exact always more (Nat.add_le_add_iff_left.mp after)

/-- What recurs does so from a time on. -/
theorem recurs_drop {happens : State → Action → Prop} (recurs : path.Recurs happens) :
    (path.drop time allowed).Recurs happens := by
  intro early
  obtain ⟨later, after, now⟩ := recurs (time + early)
  obtain ⟨more, rfl⟩ := Nat.exists_eq_add_of_le (Nat.le_of_add_right_le after)
  exact ⟨more, Nat.add_le_add_iff_left.mp after, now⟩

end Drop

/-- What settles for each of finitely many settles for all of them at once. -/
theorem settles_forall {Index : Type*} [Finite Index] {holds : Index → State → Prop}
    (each : ∀ index, path.Settles (holds index)) :
    path.Settles fun state => ∀ index, holds index state := by
  choose time settled using each
  obtain ⟨last, bound⟩ := Finite.exists_le time
  exact ⟨last, fun later after index => settled index later ((bound index).trans after)⟩

theorem settles_and {first second : State → Prop} (settled : path.Settles first)
    (settled' : path.Settles second) : path.Settles fun state => first state ∧ second state := by
  obtain ⟨time, holds⟩ := settled
  obtain ⟨time', holds'⟩ := settled'
  exact ⟨max time time', fun later after =>
    ⟨holds later ((le_max_left _ _).trans after), holds' later ((le_max_right _ _).trans after)⟩⟩

theorem Settles.mono {first second : State → Prop} (settled : path.Settles first)
    (weaker : ∀ state, first state → second state) : path.Settles second := by
  obtain ⟨time, holds⟩ := settled
  exact ⟨time, fun later after => weaker _ (holds later after)⟩

/-- A run that takes a step first. -/
def cons {start : State} {first : Action} (path : PathWith step permitted)
    (allowed : permitted start first) (moved : step first start = some (path.state 0)) :
    PathWith step permitted where
  state
    | 0 => start
    | time + 1 => path.state time
  action
    | 0 => first
    | time + 1 => path.action time
  allowed
    | 0 => allowed
    | time + 1 => path.allowed time
  moves
    | 0 => moved
    | time + 1 => path.moves time

/-- A finite run goes on with an infinite one. -/
theorem exists_append {actions : List Action} {start : State}
    (rest : PathWith step permitted) (permits : Permits step permitted actions start)
    (ran : run step actions start = some (rest.state 0)) :
    ∃ path : PathWith step permitted, path.state 0 = start ∧
      (∀ time, (bound : time < actions.length) → path.action time = actions[time]) ∧
      ∀ time, path.state (actions.length + time) = rest.state time ∧
        path.action (actions.length + time) = rest.action time := by
  induction actions generalizing start with
  | nil =>
    obtain rfl : start = rest.state 0 := Option.some.inj ran
    exact ⟨rest, rfl, fun time bound => absurd bound (Nat.not_lt_zero time),
      fun time => by rw [List.length_nil, Nat.zero_add]; exact ⟨rfl, rfl⟩⟩
  | cons first others inductionHypothesis =>
    obtain ⟨middle, moved, remaining⟩ := Option.bind_eq_some_iff.mp ran
    obtain ⟨path, begins, takes, ends⟩ := inductionHypothesis (permits.2 middle moved) remaining
    refine ⟨path.cons permits.1 (by rw [begins]; exact moved), rfl,
      fun time bound => ?_, fun time => ?_⟩
    · cases time with
      | zero => rfl
      | succ time => exact takes time (Nat.lt_of_succ_lt_succ bound)
    · rw [List.length_cons, Nat.add_right_comm]
      exact ends time

/-- A finite run goes on for ever with a step that changes nothing. -/
theorem exists_of_run {actions : List Action} {start final : State} {idle : Action}
    (permits : Permits step permitted actions start) (ran : run step actions start = some final)
    (allowed : permitted final idle) (stays : step idle final = some final) :
    ∃ path : PathWith step permitted, path.state 0 = start ∧
      (∀ time, (bound : time < actions.length) → path.action time = actions[time]) ∧
      ∀ time, actions.length ≤ time → path.state time = final ∧ path.action time = idle := by
  let rest : PathWith step permitted :=
    ⟨fun _ => final, fun _ => idle, fun _ => allowed, fun _ => stays⟩
  obtain ⟨path, begins, takes, ends⟩ := exists_append rest permits ran
  refine ⟨path, begins, takes, fun time after => ?_⟩
  obtain ⟨more, rfl⟩ := Nat.exists_eq_add_of_le after
  exact ends more

end PathWith

/-! ### Ranks -/

section Lexicographic

variable {First Second : Type*} [LT First] [LT Second] {first later : First} {second more : Second}

/-- A pair falls with its first part, whatever becomes of the second. -/
theorem toLex_lt_of_fst (less : first < later) : toLex (first, second) < toLex (later, more) :=
  Prod.Lex.toLex_lt_toLex.mpr (Or.inl less)

theorem toLex_lt_of_snd (less : second < more) : toLex (first, second) < toLex (first, more) :=
  Prod.Lex.toLex_lt_toLex.mpr (Or.inr ⟨rfl, less⟩)

end Lexicographic

/-- A rank that no permitted step raises and every helpful one lowers, in the states of a kept
set. -/
structure Ranking (step : Action → State → Option State) (permitted : State → Action → Prop)
    (kept : State → Prop) (helpful : State → Action → Prop) (Rank : Type*) [Preorder Rank] where
  rank : State → Rank
  keeps : ∀ state action next, kept state → permitted state action →
    step action state = some next → kept next
  bounds : ∀ state action next, kept state → permitted state action →
    step action state = some next → rank next ≤ rank state
  lowers : ∀ state action next, kept state → permitted state action → helpful state action →
    step action state = some next → rank next < rank state

namespace Ranking

section WellFounded

variable {kept : State → Prop} {helpful : State → Action → Prop} {Rank : Type*} [PartialOrder Rank]
  [WellFoundedLT Rank] (ranking : Ranking step permitted kept helpful Rank)
  {path : PathWith step permitted} {time : ℕ}

include ranking

/-- A rank is lowered only finitely often. -/
theorem ceases (now : kept (path.state time)) : path.Ceases helpful := by
  have always : ∀ later, time ≤ later → kept (path.state later) :=
    PathWith.lasts now ranking.keeps
  let ranks : ℕ → Rankᵒᵈ := fun later => OrderDual.toDual (ranking.rank (path.state (time + later)))
  have rises : Monotone ranks := monotone_nat_of_le_succ fun later =>
    OrderDual.toDual_le_toDual.mpr (ranking.bounds _ _ _ (always _ (Nat.le_add_right _ _))
      (path.allowed _) (path.moves (time + later)))
  obtain ⟨last, constant⟩ := WellFoundedGT.monotone_chain_condition ⟨ranks, rises⟩
  refine ⟨time + last, fun later after helped => ?_⟩
  obtain ⟨rest, rfl⟩ := Nat.exists_eq_add_of_le after
  have before : ranks last = ranks (last + rest) := constant _ (Nat.le_add_right _ _)
  have behind : ranks last = ranks (last + rest + 1) :=
    constant _ (Nat.le_add_right_of_le (Nat.le_add_right _ _))
  rw [Nat.add_assoc] at helped
  have lower : ranking.rank (path.state (time + (last + rest + 1))) <
      ranking.rank (path.state (time + (last + rest))) :=
    ranking.lowers _ _ _ (always _ (Nat.le_add_right _ _)) (path.allowed _) helped (path.moves _)
  exact lower.ne (congrArg OrderDual.ofDual (behind.symm.trans before))

/-- A goal is met and stays met, when until then a helpful step is taken again and again. -/
theorem settles {goal : State → Prop} (now : kept (path.state time))
    (fair : path.Recurs fun state action => goal state ∨ helpful state action)
    (stays : ∀ state action next, goal state → permitted state action →
      step action state = some next → goal next) : path.Settles goal := by
  obtain ⟨last, ceased⟩ := ranking.ceases now
  obtain ⟨met, after, goalOrHelp⟩ := fair last
  exact ⟨met, PathWith.lasts (goalOrHelp.resolve_right (ceased met after)) stays⟩

/-- A goal can be reached by permitted helpful steps, when one is possible wherever the goal is not
met. -/
theorem reaches {goal : State → Prop} {state : State} (now : kept state)
    (possible : ∀ state, kept state → ¬ goal state →
      ∃ action next, permitted state action ∧ helpful state action ∧
        step action state = some next) :
    ∃ final, ReachesWith step (fun state action => permitted state action ∧ helpful state action)
      state final ∧ kept final ∧ goal final := by
  induction state using (InvImage.wf ranking.rank wellFounded_lt).induction with
  | _ state inductionHypothesis =>
    by_cases met : goal state
    · exact ⟨state, .start, now, met⟩
    · obtain ⟨action, next, allowed, helped, moved⟩ := possible state now met
      obtain ⟨final, reached, ends⟩ := inductionHypothesis next
        (ranking.lowers _ _ _ now allowed helped moved) (ranking.keeps _ _ _ now allowed moved)
      exact ⟨final, ReachesWith.trans (.move .start ⟨allowed, helped⟩ moved) reached, ends⟩

end WellFounded

/-- What is due happens, when until then it stays due and a helpful step is taken again and again.
The rank is for the steps that are not yet what is due. -/
theorem leadsTo {due : State → Prop} {helpful goal : State → Action → Prop} {Rank : Type*}
    [PartialOrder Rank] [WellFoundedLT Rank]
    (ranking : Ranking step (fun state action => permitted state action ∧ ¬ goal state action) due
      helpful Rank)
    {path : PathWith step permitted} {time : ℕ} (now : due (path.state time))
    (fair : path.Recurs fun state action => due state → goal state action ∨ helpful state action) :
    ∃ later, time ≤ later ∧ goal (path.state later) (path.action later) := by
  by_contra! never
  let rest : PathWith step fun state action => permitted state action ∧ ¬ goal state action :=
    path.drop time fun later after => ⟨path.allowed later, never later after⟩
  have dueAtFirst : due (rest.state 0) := now
  obtain ⟨last, ceased⟩ := ranking.ceases dueAtFirst
  obtain ⟨later, after, happens⟩ := fair (time + last)
  obtain ⟨more, rfl⟩ := Nat.exists_eq_add_of_le (Nat.le_of_add_right_le after)
  have still : due (rest.state more) :=
    PathWith.lasts dueAtFirst ranking.keeps more (Nat.zero_le more)
  rcases happens still with met | helped
  · exact never _ (Nat.le_add_right time more) met
  · exact ceased more (Nat.add_le_add_iff_left.mp after) helped

/-- Rankings of the processes of a pool make up one of the pool, which a step of any process
lowers. -/
def pool {Index Rank : Type*} [Preorder Rank] {kept : State → Prop}
    {helpful : Index → State → Action → Prop}
    (ranking : ∀ index, Ranking step permitted kept (helpful index) Rank)
    (keeps : ∀ state action next, kept state → permitted state action →
      step action state = some next → kept next) :
    Ranking step permitted kept (fun state action => ∃ index, helpful index state action)
      (Index → Rank) where
  rank state index := (ranking index).rank state
  keeps := keeps
  bounds _ _ _ now allowed moved index := (ranking index).bounds _ _ _ now allowed moved
  lowers _ _ _ now allowed helped moved := by
    obtain ⟨index, helped⟩ := helped
    exact Pi.lt_def.mpr ⟨fun other => (ranking other).bounds _ _ _ now allowed moved,
      index, (ranking index).lowers _ _ _ now allowed helped moved⟩

end Ranking

end Transition
