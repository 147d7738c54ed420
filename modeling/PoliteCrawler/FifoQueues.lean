/-
This file says what it means for a transition system to serve a queue first in,
first out: a step takes the front entry, or adds entries behind all others.

Along an infinite run the entries before a waiting one are then taken before it,
in their order, and nothing comes between them. So when the queue is taken from
again and again, as long as something waits in it, every entry is taken.
-/

import PoliteCrawler.Liveness

namespace Transition

variable {State Action Item : Type*} {step : Action → State → Option State}
  {permitted : State → Action → Prop}

/-- A step takes the front entry of the queue, or adds to its end. -/
structure Fifo (step : Action → State → Option State) (permitted : State → Action → Prop)
    (queue : State → List Item) (takes : State → Action → Prop) : Prop where
  taken : ∀ state action next, permitted state action → step action state = some next →
    takes state action → ∃ item, queue state = item :: queue next
  grown : ∀ state action next, permitted state action → step action state = some next →
    ¬ takes state action → ∃ more, queue next = queue state ++ more

namespace Fifo

variable {queue : State → List Item} {takes : State → Action → Prop}
  (fifo : Fifo step permitted queue takes) {path : PathWith step permitted} {time later : ℕ}

include fifo

/-- Up to a time the queue only grows, or an entry was taken from it before that. -/
theorem grows_until (after : time ≤ later) :
    (∃ first, time ≤ first ∧ takes (path.state first) (path.action first) ∧
        ∃ more, queue (path.state first) = queue (path.state time) ++ more) ∨
      ∃ more, queue (path.state later) = queue (path.state time) ++ more := by
  induction later, after using Nat.le_induction with
  | base => exact Or.inr ⟨[], (List.append_nil _).symm⟩
  | succ later after inductionHypothesis =>
    rcases inductionHypothesis with taken | ⟨more, same⟩
    · exact Or.inl taken
    · by_cases takesNow : takes (path.state later) (path.action later)
      · exact Or.inl ⟨later, after, takesNow, more, same⟩
      · obtain ⟨added, grown⟩ :=
          fifo.grown _ _ _ (path.allowed later) (path.moves later) takesNow
        exact Or.inr ⟨more ++ added, by rw [grown, same, List.append_assoc]⟩

/-- The next time an entry is taken, the queue has only grown till then. -/
theorem exists_next_take (after : time ≤ later)
    (takesLater : takes (path.state later) (path.action later)) :
    ∃ first, time ≤ first ∧ takes (path.state first) (path.action first) ∧
      ∃ more, queue (path.state first) = queue (path.state time) ++ more := by
  rcases fifo.grows_until after with taken | grown
  · exact taken
  · exact ⟨later, after, takesLater, grown⟩

/-- An entry that waits is taken when those before it have been, and what waits behind it is still
behind it. -/
theorem taken_in_turn (goesOn : ∀ early, queue (path.state early) ≠ [] →
      ∃ later, early ≤ later ∧ takes (path.state later) (path.action later))
    {front back : List Item} {item : Item}
    (waits : queue (path.state time) = front ++ item :: back) :
    ∃ later, time ≤ later ∧ takes (path.state later) (path.action later) ∧
      ∃ more, queue (path.state later) = item :: (back ++ more) := by
  induction front generalizing time back with
  | nil =>
    obtain ⟨late, after, takesLate⟩ := goesOn time (by rw [waits]; exact List.cons_ne_nil _ _)
    obtain ⟨first, notBefore, takesFirst, more, same⟩ := fifo.exists_next_take after takesLate
    exact ⟨first, notBefore, takesFirst, more, by rw [same, waits]; rfl⟩
  | cons ahead front inductionHypothesis =>
    obtain ⟨late, after, takesLate⟩ := goesOn time (by rw [waits]; exact List.cons_ne_nil _ _)
    obtain ⟨first, notBefore, takesFirst, more, same⟩ := fifo.exists_next_take after takesLate
    obtain ⟨front', taken⟩ :=
      fifo.taken _ _ _ (path.allowed first) (path.moves first) takesFirst
    have left : queue (path.state (first + 1)) = front ++ item :: (back ++ more) := by
      rw [same, waits, List.cons_append, List.cons_append, List.cons.injEq] at taken
      rw [← taken.2, List.append_assoc, List.cons_append]
    obtain ⟨last, behind, takesLast, rest, served⟩ := inductionHypothesis left
    refine ⟨last, notBefore.trans ((Nat.le_succ first).trans behind), takesLast, more ++ rest, ?_⟩
    rw [served, List.append_assoc]

end Fifo

end Transition
