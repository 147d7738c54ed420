/-
This file is about items that are marked and queued in two steps, by any number
of parties. An item is noted, which may mark it and may put it in the hand of
the party that noted it; what is in hand is entered into a queue later, or given
up. An event says what one step of one party does to the whole.

Two laws are kept by the events. No item is entered twice, as long as an item is
taken in hand only when it is marked for the first time. No marked item is
stranded, as long as what is given up has been in the queue.
-/

import Mathlib.Data.Finset.Insert
import Mathlib.Algebra.Order.Group.Multiset

/-- The items of each kind. `popped` and `entered` keep what ever left the queue and what ever
entered it. -/
structure Ledger (Item : Type*) where
  marked : Finset Item
  inHand : Multiset Item
  waiting : Multiset Item
  popped : Multiset Item
  entered : Multiset Item

namespace Ledger

/-- What a step means. -/
inductive Event (Item : Type*)
  | note (item : Item) (marks takes : Bool)
  /-- The items enter the queue; they leave the hand when the party is `done` with them. -/
  | enter (items : Multiset Item) (done : Bool)
  /-- Items that were popped go back. -/
  | requeue (items : Multiset Item)
  | pop (items : Multiset Item)
  /-- The items leave the hand without entering the queue. -/
  | drop (items : Multiset Item)
  | wipe
  | idle

variable {Item : Type*}

/-- The ledger with more in hand. -/
def hold (ledger : Ledger Item) (more : Multiset Item) : Ledger Item :=
  { ledger with inHand := ledger.inHand + more }

/-- The items that are in the queue or left it as tasks. -/
def placed (ledger : Ledger Item) : Multiset Item := ledger.waiting + ledger.popped

variable [DecidableEq Item]

/-- The marked items after an item is noted. -/
def mark (ledger : Ledger Item) (item : Item) (marks : Bool) : Finset Item :=
  if marks then insert item ledger.marked else ledger.marked

theorem subset_mark (ledger : Ledger Item) (item : Item) (marks : Bool) :
    ledger.marked ⊆ ledger.mark item marks := by
  unfold mark
  split
  · exact Finset.subset_insert _ _
  · exact Finset.Subset.refl _

theorem mem_mark (ledger : Ledger Item) {item other : Item} {marks : Bool}
    (member : other ∈ ledger.mark item marks) :
    other ∈ ledger.marked ∨ other = item ∧ marks = true := by
  unfold mark at member
  split at member
  · exact (Finset.mem_insert.mp member).symm.imp_right fun same => ⟨same, ‹_›⟩
  · exact Or.inl member

/-- The ledger after an event. -/
inductive Moved (ledger : Ledger Item) : Event Item → Ledger Item → Prop
  | noted {item : Item} {marks : Bool} :
      Moved ledger (.note item marks false) { ledger with marked := ledger.mark item marks }
  | taken {item : Item} {marks : Bool} :
      Moved ledger (.note item marks true)
        { ledger with marked := ledger.mark item marks, inHand := item ::ₘ ledger.inHand }
  | entered {items left : Multiset Item} (held : ledger.inHand = items + left) :
      Moved ledger (.enter items true)
        { ledger with
          inHand := left
          waiting := ledger.waiting + items
          entered := ledger.entered + items }
  | enteredEarly {items : Multiset Item} :
      Moved ledger (.enter items false)
        { ledger with
          waiting := ledger.waiting + items
          entered := ledger.entered + items }
  | requeued {items : Multiset Item} :
      Moved ledger (.requeue items) { ledger with waiting := ledger.waiting + items }
  | popped {items left : Multiset Item} (front : ledger.waiting = items + left) :
      Moved ledger (.pop items)
        { ledger with waiting := left, popped := ledger.popped + items }
  | dropped {items left : Multiset Item} (held : ledger.inHand = items + left) :
      Moved ledger (.drop items) { ledger with inHand := left }
  | wiped : Moved ledger .wipe { ledger with waiting := 0 }
  | idled : Moved ledger .idle ledger

variable {ledger next : Ledger Item} {event : Event Item}

/-- An event of one party leaves alone what the others have in hand. -/
theorem Moved.hold (moved : Moved ledger event next) (more : Multiset Item) :
    Moved (ledger.hold more) event (next.hold more) := by
  cases moved with
  | noted => exact .noted
  | @taken item marks =>
    unfold Ledger.hold
    rw [Multiset.cons_add]
    exact .taken
  | @entered items left held =>
    have held : ledger.inHand + more = items + (left + more) := by rw [held, add_assoc]
    exact .entered held
  | enteredEarly => exact .enteredEarly
  | requeued => exact .requeued
  | popped front => exact .popped front
  | @dropped items left held =>
    have held : ledger.inHand + more = items + (left + more) := by rw [held, add_assoc]
    exact .dropped held
  | wiped => exact .wiped
  | idled => exact .idled

/-! ### Nothing is entered twice -/

/-- What was entered or is in hand is so once, and is marked; at most one item is still to be
marked. -/
structure Once (pending : Option Item) (ledger : Ledger Item) : Prop where
  nodup : (ledger.entered + ledger.inHand).Nodup
  known : ∀ item ∈ ledger.entered + ledger.inHand, item ∈ ledger.marked ∨ pending = some item

/-- The event takes an item in hand only when it marks it for the first time, and enters only what
is in hand. -/
def TakesNew (pending : Option Item) (ledger : Ledger Item) : Event Item → Prop
  | .note item marks takes =>
    takes = true → marks = true ∧ item ∉ ledger.marked ∧ pending ≠ some item
  | .enter _ done => done = true
  | _ => True

variable {pending : Option Item} {item : Item}

omit [DecidableEq Item] in
/-- An item that is neither marked nor pending is new. -/
theorem Once.cons (once : Once pending ledger) (fresh : item ∉ ledger.marked)
    (settled : pending ≠ some item) :
    (item ::ₘ (ledger.entered + ledger.inHand)).Nodup := by
  refine Multiset.nodup_cons.mpr ⟨fun member => ?_, once.nodup⟩
  rcases once.known item member with marked | same
  · exact fresh marked
  · exact settled same

/-- What leaves the hand, entered or not, was there once. -/
theorem Once.moved (once : Once pending ledger) (moved : Moved ledger event next)
    (new : TakesNew pending ledger event) : Once pending next := by
  cases moved with
  | noted =>
    exact ⟨once.nodup, fun other member =>
      (once.known other member).imp_left fun marked => ledger.subset_mark _ _ marked⟩
  | @taken item marks =>
    obtain ⟨rfl, fresh, settled⟩ := new rfl
    refine ⟨?_, fun other member => ?_⟩
    · show (ledger.entered + item ::ₘ ledger.inHand).Nodup
      rw [Multiset.add_cons]
      exact once.cons fresh settled
    · have member : other ∈ ledger.entered + item ::ₘ ledger.inHand := member
      rw [Multiset.add_cons] at member
      rcases Multiset.mem_cons.mp member with rfl | member
      · exact Or.inl (Finset.mem_insert_self _ _)
      · exact (once.known other member).imp_left Finset.mem_insert_of_mem
  | @entered items left held =>
    have same : ledger.entered + items + left = ledger.entered + ledger.inHand := by
      rw [held, add_assoc]
    refine ⟨?_, fun other member => ?_⟩
    · show (ledger.entered + items + left).Nodup
      rw [same]
      exact once.nodup
    · have member : other ∈ ledger.entered + items + left := member
      exact once.known other (same ▸ member)
  | enteredEarly => cases new
  | requeued => exact ⟨once.nodup, once.known⟩
  | popped _ => exact ⟨once.nodup, once.known⟩
  | @dropped items left held =>
    have fewer : ledger.entered + left ≤ ledger.entered + ledger.inHand := by
      rw [held]
      exact add_le_add_right (Multiset.le_add_left _ _) _
    exact ⟨Multiset.nodup_of_le fewer once.nodup,
      fun other member => once.known other (Multiset.mem_of_le fewer member)⟩
  | wiped => exact ⟨once.nodup, once.known⟩
  | idled => exact once

/-- A new item may be entered before it is marked. -/
theorem Once.enterEarly (once : Once none ledger) (fresh : item ∉ ledger.marked)
    (moved : Moved ledger (.enter {item} false) next) : Once (some item) next := by
  cases moved
  have same : ledger.entered + {item} + ledger.inHand =
      item ::ₘ (ledger.entered + ledger.inHand) := by
    rw [add_assoc, Multiset.singleton_add, Multiset.add_cons]
  refine ⟨?_, fun other member => ?_⟩
  · show (ledger.entered + {item} + ledger.inHand).Nodup
    rw [same]
    exact once.cons fresh nofun
  · have member : other ∈ ledger.entered + {item} + ledger.inHand := member
    rw [same] at member
    rcases Multiset.mem_cons.mp member with rfl | member
    · exact Or.inr rfl
    · exact (once.known other member).imp_right (nomatch ·)

/-- The mark of a pending item settles it. -/
theorem Once.settle (once : Once (some item) ledger)
    (moved : Moved ledger (.note item true false) next) : Once none next := by
  cases moved
  refine ⟨once.nodup, fun other member => Or.inl ?_⟩
  rcases once.known other member with marked | same
  · exact Finset.mem_insert_of_mem marked
  · exact Option.some.inj same ▸ Finset.mem_insert_self _ _

/-! ### Nothing marked is stranded -/

/-- Every marked item is in hand, or has been in the queue. -/
def NoneStranded (ledger : Ledger Item) : Prop :=
  ∀ item ∈ ledger.marked, item ∈ ledger.inHand ∨ item ∈ ledger.placed

/-- What the event gives up has been in the queue. An item that is marked is taken in hand, or was
marked before, or has been in the queue. -/
def spares (ledger : Ledger Item) : Event Item → Bool
  | .note item marks takes =>
    !marks || takes || item ∈ ledger.marked || item ∈ ledger.placed
  | .drop items => decide (∀ item ∈ items, item ∈ ledger.marked → item ∈ ledger.placed)
  | .wipe => decide (∀ item ∈ ledger.waiting, item ∈ ledger.marked → item ∈ ledger.popped)
  | _ => true

/-- Only a wipe takes items out of the queue for good. -/
theorem Moved.placed (moved : Moved ledger event next) (kept : event ≠ .wipe) :
    ledger.placed ≤ next.placed := by
  cases moved with
  | wiped => exact absurd rfl kept
  | @popped items left front =>
    show ledger.waiting + ledger.popped ≤ left + (ledger.popped + items)
    rw [front, add_comm items left, add_assoc, add_comm items]
  | entered _ | enteredEarly | requeued =>
    exact add_le_add_left (Multiset.le_add_right _ _) _
  | _ => exact le_rfl

/-- What enters is placed. -/
theorem Moved.placed_of_enter {items : Multiset Item} {done : Bool}
    (moved : Moved ledger (.enter items done) next) (member : item ∈ items) :
    item ∈ next.placed := by
  cases moved <;>
    exact Multiset.mem_add.mpr (Or.inl (Multiset.mem_add.mpr (Or.inr member)))

theorem NoneStranded.moved (stranded : NoneStranded ledger) (moved : Moved ledger event next)
    (spared : ledger.spares event = true) : NoneStranded next := by
  have stays : event ≠ .wipe → ∀ item ∈ ledger.placed, item ∈ next.placed := fun kept item =>
    (Multiset.subset_of_le (moved.placed kept) ·)
  intro item marked
  cases moved with
  | @noted noted marks =>
    rcases ledger.mem_mark marked with old | ⟨rfl, rfl⟩
    · exact stranded item old
    · simp only [spares, Bool.not_true, Bool.false_or, Bool.or_eq_true, decide_eq_true_eq] at spared
      exact spared.elim (stranded item) Or.inr
  | @taken noted marks =>
    rcases ledger.mem_mark marked with old | ⟨rfl, rfl⟩
    · exact (stranded item old).imp_left (Multiset.mem_cons_of_mem)
    · exact Or.inl (Multiset.mem_cons_self _ _)
  | @entered items left held =>
    refine (stranded item marked).elim (fun member => ?_) fun placed =>
      Or.inr (stays nofun item placed)
    have member : item ∈ items + left := held ▸ member
    rcases Multiset.mem_add.mp member with entered | left
    · exact Or.inr (Multiset.mem_add.mpr (Or.inl (Multiset.mem_add.mpr (Or.inr entered))))
    · exact Or.inl left
  | enteredEarly => exact (stranded item marked).imp_right (stays nofun item)
  | requeued => exact (stranded item marked).imp_right (stays nofun item)
  | popped _ => exact (stranded item marked).imp_right (stays nofun item)
  | @dropped items left held =>
    refine (stranded item marked).elim (fun member => ?_) Or.inr
    have member : item ∈ items + left := held ▸ member
    rcases Multiset.mem_add.mp member with dropped | left
    · exact Or.inr (of_decide_eq_true spared item dropped marked)
    · exact Or.inl left
  | wiped =>
    refine (stranded item marked).imp_right fun placed => ?_
    refine Multiset.mem_add.mpr (Or.inr ?_)
    rcases Multiset.mem_add.mp placed with waiting | popped
    · exact of_decide_eq_true spared item waiting marked
    · exact popped
  | idled => exact stranded item marked

end Ledger
