/-
This file builds the theory of a queue whose entries need keys that entries
before them provide.

A queue is supplied when every entry, at the moment it comes to the front, finds
its keys: they are available from the start, or an entry before it has provided
them. Taking the front entry makes available what it provides, so a reader that
goes through a supplied queue in order never meets a missing key.
-/

import Mathlib.Data.Set.Basic

namespace Supply

variable {Entry Key : Type*}

/-- The keys that some entry of the list provides. -/
def provided (provides : Entry → Set Key) (entries : List Entry) : Set Key :=
  {key | ∃ entry ∈ entries, key ∈ provides entry}

/-- Every entry needs only what is available or provided before it. -/
def Supplied (needs provides : Entry → Set Key) (available : Set Key) : List Entry → Prop
  | [] => True
  | entry :: rest =>
    needs entry ⊆ available ∧ Supplied needs provides (available ∪ provides entry) rest

variable {needs provides : Entry → Set Key} {available more : Set Key}

theorem provided_nil : provided provides [] = ∅ :=
  Set.eq_empty_of_forall_notMem fun _ ⟨_, member, _⟩ => List.not_mem_nil member

theorem provided_cons (entry : Entry) (rest : List Entry) :
    provided provides (entry :: rest) = provides entry ∪ provided provides rest := by
  ext key
  simp only [provided, List.mem_cons, exists_eq_or_imp, Set.mem_union, Set.mem_ofPred_eq]

/-- With more available a queue stays supplied. -/
theorem Supplied.mono {entries : List Entry} (supplied : Supplied needs provides available entries)
    (less : available ⊆ more) : Supplied needs provides more entries := by
  induction entries generalizing available more with
  | nil => trivial
  | cons entry rest inductionHypothesis =>
    exact ⟨supplied.1.trans less,
      inductionHypothesis supplied.2 (Set.union_subset_union_left _ less)⟩

/-- A queue takes an entry at its end when what the entry needs is available or provided by the
queue. -/
theorem Supplied.concat {entries : List Entry} {entry : Entry}
    (supplied : Supplied needs provides available entries)
    (found : needs entry ⊆ available ∪ provided provides entries) :
    Supplied needs provides available (entries ++ [entry]) := by
  induction entries generalizing available with
  | nil =>
    rw [provided_nil, Set.union_empty] at found
    exact ⟨found, trivial⟩
  | cons first rest inductionHypothesis =>
    rw [provided_cons, ← Set.union_assoc] at found
    exact ⟨supplied.1, inductionHypothesis supplied.2 found⟩

/-- The front entry finds its keys, and once it is taken the rest is supplied from what it has
made available. -/
theorem Supplied.take {entry : Entry} {rest : List Entry}
    (supplied : Supplied needs provides available (entry :: rest))
    (gained : available ∪ provides entry ⊆ more) : Supplied needs provides more rest :=
  supplied.2.mono gained

end Supply
