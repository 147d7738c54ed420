/-
This file builds amortised accounting for the runs of a partial step function.

An action spends an amount in the state where it is taken. A state has a credit
and an income so far. When each step pays what it spends out of the credit it
uses up and the income it makes, a whole run spends no more than the credit it
starts with and the income it makes: what single steps spend need not be bounded
by anything they do themselves.
-/

import PoliteCrawler.Transition
import Mathlib.Algebra.Order.Monoid.Defs

namespace Transition

variable {Amount : Type*} [AddCommMonoid Amount]

/-! ### Costs along a run -/

section Runs

variable {State Action : Type*}
  {step : Action → State → Option State} {permitted : State → Action → Prop}
  {cost : Action → State → Amount}

/-- What the actions of a list spend that are taken one after the other. -/
def spent (step : Action → State → Option State) (cost : Action → State → Amount) :
    List Action → State → Amount
  | [], _ => 0
  | action :: rest, state =>
    cost action state + (step action state).elim 0 (spent step cost rest)

@[simp] theorem spent_nil (state : State) : spent step cost [] state = 0 := rfl

theorem spent_cons {action : Action} {rest : List Action} {state next : State}
    (moved : step action state = some next) :
    spent step cost (action :: rest) state = cost action state + spent step cost rest next := by
  rw [spent, moved, Option.elim_some]

/-- A run spends no more than the credit it uses up and the income it makes, when every permitted
step does so in the states of an invariant. -/
theorem spent_add_credit_le [PartialOrder Amount] [IsOrderedCancelAddMonoid Amount]
    {holds : State → Prop} {credit income : State → Amount}
    (pays : ∀ state action next, holds state → permitted state action →
      step action state = some next →
      holds next ∧ cost action state + (credit next + income state) ≤ credit state + income next)
    {actions : List Action} {start state : State} (initial : holds start)
    (ran : run step actions start = some state) (permits : Permits step permitted actions start) :
    spent step cost actions start + (credit state + income start) ≤
      credit start + income state := by
  induction actions generalizing start with
  | nil =>
    obtain rfl : start = state := Option.some.inj ran
    rw [spent_nil, zero_add]
  | cons action rest inductionHypothesis =>
    obtain ⟨middle, moved, remaining⟩ := Option.bind_eq_some_iff.mp ran
    obtain ⟨kept, paid⟩ := pays start action middle initial permits.1 moved
    have later := inductionHypothesis kept remaining (permits.2 middle moved)
    refine le_of_add_le_add_right (a := credit middle + income middle) ?_
    rw [spent_cons moved]
    calc cost action start + spent step cost rest middle + (credit state + income start) +
          (credit middle + income middle)
        = (cost action start + (credit middle + income start)) +
            (spent step cost rest middle + (credit state + income middle)) := by
          simp only [add_assoc, add_left_comm, add_comm]
      _ ≤ (credit start + income middle) + (credit middle + income state) := add_le_add paid later
      _ = credit start + income state + (credit middle + income middle) := by
          simp only [add_left_comm, add_comm]

end Runs

/-! ### A pool of processes -/

/-- What one process pays out of its credit, the pool pays. -/
theorem add_sum_update_le [PartialOrder Amount] [IsOrderedCancelAddMonoid Amount]
    {Process Local : Type*} [Fintype Process] [DecidableEq Process] (pool : Process → Local)
    (process : Process) (after : Local) (credit : Local → Amount) {used made : Amount}
    (paid : used + credit after ≤ credit (pool process) + made) :
    used + (∑ other, credit (Function.update pool process after other)) ≤
      (∑ other, credit (pool other)) + made := by
  refine le_of_add_le_add_right (a := credit (pool process)) ?_
  calc used + (∑ other, credit (Function.update pool process after other)) + credit (pool process)
      = used + ((∑ other, credit (pool other)) + credit after) := by
        rw [add_assoc, sum_update_add]
    _ = (∑ other, credit (pool other)) + (used + credit after) := add_left_comm _ _ _
    _ ≤ (∑ other, credit (pool other)) + (credit (pool process) + made) := by gcongr
    _ = (∑ other, credit (pool other)) + made + credit (pool process) := by
        rw [add_comm (credit (pool process)), add_assoc]

end Transition
