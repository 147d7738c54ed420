/-
This file builds the theory of runs of a partial step function. A system is a
function `step : Action → State → Option State`; `none` means that the action is
not enabled. A run is recorded together with a permission on its steps, so one
induction serves both for all runs (every step permitted) and for the runs that
avoid a given kind of step.

The last sections are about servers that answer requests, one of which
simulates the other, and about a finite pool of processes, one of which moves at
a time: what a step does to the sum of a measure over the pool.
-/

import Mathlib.Algebra.BigOperators.Group.Finset.Basic

namespace Transition

/-! ### Runs whose steps are all permitted -/

section Runs

variable {State Action : Type*}

/-- The states reached from `start` by steps that are each permitted where they are taken. -/
inductive ReachesWith (step : Action → State → Option State)
    (permitted : State → Action → Prop) (start : State) : State → Prop
  | start : ReachesWith step permitted start start
  | move {state next : State} {action : Action}
      (reached : ReachesWith step permitted start state) (allowed : permitted state action)
      (moved : step action state = some next) : ReachesWith step permitted start next

/-- The states reached from `start` by any steps. -/
abbrev Reaches (step : Action → State → Option State) (start : State) : State → Prop :=
  ReachesWith step (fun _ _ => True) start

variable {step : Action → State → Option State} {permitted : State → Action → Prop}
  {start state next : State}

/-- What holds at the start and is kept by every permitted step holds in every state reached. -/
theorem ReachesWith.invariant {holds : State → Prop}
    (reached : ReachesWith step permitted start state) (initial : holds start)
    (kept : ∀ state action next, holds state → permitted state action →
      step action state = some next → holds next) : holds state := by
  induction reached with
  | start => exact initial
  | move _ allowed moved inductionHypothesis =>
    exact kept _ _ _ inductionHypothesis allowed moved

theorem ReachesWith.trans (first : ReachesWith step permitted start state)
    (second : ReachesWith step permitted state next) :
    ReachesWith step permitted start next := by
  induction second with
  | start => exact first
  | move _ allowed moved inductionHypothesis =>
    exact .move inductionHypothesis allowed moved

/-- Steps that are permitted are permitted under a weaker condition. -/
theorem ReachesWith.mono {weaker : State → Action → Prop}
    (reached : ReachesWith step permitted start state)
    (implies : ∀ state action, permitted state action → weaker state action) :
    ReachesWith step weaker start state := by
  induction reached with
  | start => exact .start
  | move _ allowed moved inductionHypothesis =>
    exact .move inductionHypothesis (implies _ _ allowed) moved

/-- Steps that are permitted are permitted under a condition that an invariant of theirs implies. -/
theorem ReachesWith.mono_of_invariant {holds : State → Prop} {implied : State → Action → Prop}
    (reached : ReachesWith step permitted start state) (initial : holds start)
    (kept : ∀ state action next, holds state → permitted state action →
      step action state = some next → holds next)
    (implies : ∀ state action, holds state → permitted state action → implied state action) :
    ReachesWith step implied start state := by
  induction reached with
  | start => exact .start
  | move before allowed moved inductionHypothesis =>
    exact .move inductionHypothesis (implies _ _ (before.invariant initial kept) allowed) moved

/-- Takes the actions of a list one after the other; `none` when one of them is not enabled. -/
def run (step : Action → State → Option State) : List Action → State → Option State
  | [], state => some state
  | action :: rest, state => (step action state).bind (run step rest)

theorem run_append (first second : List Action) (start : State) :
    run step (first ++ second) start = (run step first start).bind (run step second) := by
  induction first generalizing start with
  | nil => rfl
  | cons action rest inductionHypothesis =>
    rw [List.cons_append, run, run, Option.bind_assoc]
    exact Option.bind_congr fun middle _ => inductionHypothesis middle

/-- Every action of the list is permitted where it is taken. -/
def Permits (step : Action → State → Option State) (permitted : State → Action → Prop) :
    List Action → State → Prop
  | [], _ => True
  | action :: rest, state =>
    permitted state action ∧ ∀ next, step action state = some next → Permits step permitted rest next

/-- The state a list of permitted actions leads to is reached. -/
theorem reachesWith_of_run {actions : List Action} (ran : run step actions start = some state)
    (permits : Permits step permitted actions start) :
    ReachesWith step permitted start state := by
  induction actions generalizing start with
  | nil =>
    obtain rfl : start = state := Option.some.inj ran
    exact .start
  | cons action rest inductionHypothesis =>
    obtain ⟨middle, moved, remaining⟩ := Option.bind_eq_some_iff.mp ran
    exact ReachesWith.trans (.move .start permits.1 moved)
      (inductionHypothesis remaining (permits.2 middle moved))

theorem permits_of_forall {actions : List Action}
    (each : ∀ action ∈ actions, ∀ state, permitted state action) :
    Permits step permitted actions start := by
  induction actions generalizing start with
  | nil => trivial
  | cons action rest inductionHypothesis =>
    obtain ⟨first, others⟩ := List.forall_mem_cons.mp each
    exact ⟨first _, fun _ _ => inductionHypothesis others⟩

theorem permits_of_all {actions : List Action}
    (all : ∀ state action, permitted state action) : Permits step permitted actions start :=
  permits_of_forall fun action _ state => all state action

/-- Actions that two conditions permit are permitted under both. -/
theorem Permits.and {other : State → Action → Prop} {actions : List Action}
    (permits : Permits step permitted actions start) (others : Permits step other actions start) :
    Permits step (fun state action => permitted state action ∧ other state action) actions
      start := by
  induction actions generalizing start with
  | nil => trivial
  | cons action rest inductionHypothesis =>
    exact ⟨⟨permits.1, others.1⟩, fun next moved =>
      inductionHypothesis (permits.2 next moved) (others.2 next moved)⟩

/-- The state a list of actions leads to is reached. -/
theorem reaches_of_run {actions : List Action} (ran : run step actions start = some state) :
    Reaches step start state :=
  reachesWith_of_run ran (permits_of_all fun _ _ => trivial)

/-- Takes the actions of a list one after the other, each only where it is permitted. -/
def runWith (step : Action → State → Option State) (permitted : State → Action → Prop)
    [∀ state action, Decidable (permitted state action)] : List Action → State → Option State
  | [], state => some state
  | action :: rest, state =>
    if permitted state action then (step action state).bind (runWith step permitted rest) else none

theorem run_of_runWith [∀ state action, Decidable (permitted state action)]
    {actions : List Action} (ran : runWith step permitted actions start = some state) :
    run step actions start = some state := by
  induction actions generalizing start with
  | nil => exact ran
  | cons action rest inductionHypothesis =>
    rw [runWith] at ran
    split at ran
    · obtain ⟨middle, moved, remaining⟩ := Option.bind_eq_some_iff.mp ran
      exact Option.bind_eq_some_iff.mpr ⟨middle, moved, inductionHypothesis remaining⟩
    · cases ran

/-- The state a list of actions leads to, each taken where it is permitted, is reached. -/
theorem reachesWith_of_runWith [∀ state action, Decidable (permitted state action)]
    {actions : List Action} (ran : runWith step permitted actions start = some state) :
    ReachesWith step permitted start state := by
  induction actions generalizing start with
  | nil =>
    obtain rfl : start = state := Option.some.inj ran
    exact .start
  | cons action rest inductionHypothesis =>
    rw [runWith] at ran
    split at ran
    · rename_i allowed
      obtain ⟨middle, moved, remaining⟩ := Option.bind_eq_some_iff.mp ran
      exact ReachesWith.trans (.move .start allowed moved) (inductionHypothesis remaining)
    · cases ran

/-- The actions of such a list are permitted where they are taken. -/
theorem permits_of_runWith [∀ state action, Decidable (permitted state action)]
    {actions : List Action} (ran : runWith step permitted actions start = some state) :
    Permits step permitted actions start := by
  induction actions generalizing start with
  | nil => trivial
  | cons action rest inductionHypothesis =>
    rw [runWith] at ran
    split at ran
    · rename_i allowed
      obtain ⟨middle, moved, remaining⟩ := Option.bind_eq_some_iff.mp ran
      refine ⟨allowed, fun next moved' => inductionHypothesis ?_⟩
      obtain rfl : middle = next := Option.some.inj (moved.symm.trans moved')
      exact remaining
    · cases ran

/-- A run ends well exactly when each of its steps is permitted: `kept` is kept by the permitted
steps, and what any other step breaks stays broken. -/
theorem holds_iff_permits {kept holds : State → Prop} {actions : List Action}
    (sound : ∀ state, kept state → holds state)
    (keeps : ∀ state action next, kept state → permitted state action →
      step action state = some next → kept next)
    (breaks : ∀ state action next, kept state → ¬ permitted state action →
      step action state = some next → ¬ holds next)
    (lasts : ∀ state action next, ¬ holds state → step action state = some next → ¬ holds next)
    (ran : run step actions start = some state) (initial : kept start) :
    holds state ↔ Permits step permitted actions start := by
  induction actions generalizing start with
  | nil =>
    obtain rfl : start = state := Option.some.inj ran
    exact iff_of_true (sound start initial) trivial
  | cons action rest inductionHypothesis =>
    obtain ⟨middle, moved, remaining⟩ := Option.bind_eq_some_iff.mp ran
    constructor
    · intro good
      have goodMiddle : holds middle := by
        by_contra broken
        exact (reaches_of_run remaining).invariant broken
          (fun before action after broken _ moved => lasts before action after broken moved) good
      have allowed : permitted start action := by
        by_contra refused
        exact breaks start action middle initial refused moved goodMiddle
      refine ⟨allowed, fun other same => ?_⟩
      obtain rfl := Option.some.inj (moved.symm.trans same)
      exact (inductionHypothesis remaining (keeps _ _ _ initial allowed moved)).mp good
    · intro permits
      exact (inductionHypothesis remaining (keeps _ _ _ initial permits.1 moved)).mpr
        (permits.2 middle moved)

end Runs

/-! ### What runs show -/

section Observations

variable {State Action Observation : Type*} {step : Action → State → Option State}
  {observe : Action → State → List Observation}

/-- What the actions of a list show that are taken one after the other. -/
def observed (step : Action → State → Option State) (observe : Action → State → List Observation) :
    List Action → State → List Observation
  | [], _ => []
  | action :: rest, state =>
    observe action state ++ (step action state).elim [] (observed step observe rest)

theorem observed_cons {action : Action} {rest : List Action} {state next : State}
    (moved : step action state = some next) :
    observed step observe (action :: rest) state =
      observe action state ++ observed step observe rest next := by
  rw [observed, moved, Option.elim_some]

/-- What holds of a state and of all that was shown before, and is kept by every step with what the
step shows, holds after a run. -/
theorem observed_invariant {holds : List Observation → State → Prop}
    (kept : ∀ shown state action next, holds shown state → step action state = some next →
      holds (shown ++ observe action state) next)
    {shown : List Observation} {actions : List Action} {start state : State}
    (initial : holds shown start) (ran : run step actions start = some state) :
    holds (shown ++ observed step observe actions start) state := by
  induction actions generalizing shown start with
  | nil =>
    obtain rfl : start = state := Option.some.inj ran
    rw [observed, List.append_nil]
    exact initial
  | cons action rest inductionHypothesis =>
    obtain ⟨middle, moved, remaining⟩ := Option.bind_eq_some_iff.mp ran
    rw [observed_cons moved, ← List.append_assoc]
    exact inductionHypothesis (kept shown start action middle initial moved) remaining

end Observations

/-! ### Servers -/

section Servers

variable {Request Answer Concrete Abstract : Type*}

/-- The answers to a list of requests, one after the other. -/
def answers {State : Type*} (serve : Request → State → Answer × State) :
    List Request → State → List Answer
  | [], _ => []
  | request :: rest, state =>
    (serve request state).1 :: answers serve rest (serve request state).2

/-- Two servers whose states stay related from request to request give the same answers. -/
theorem answers_eq_of_simulation {serve : Request → Concrete → Answer × Concrete}
    {model : Request → Abstract → Answer × Abstract} {simulates : Concrete → Abstract → Prop}
    {requests : List Request}
    (same : ∀ request ∈ requests, ∀ concrete abstract, simulates concrete abstract →
      (serve request concrete).1 = (model request abstract).1 ∧
        simulates (serve request concrete).2 (model request abstract).2)
    {concrete : Concrete} {abstract : Abstract} (initial : simulates concrete abstract) :
    answers serve requests concrete = answers model requests abstract := by
  induction requests generalizing concrete abstract with
  | nil => rfl
  | cons request rest inductionHypothesis =>
    obtain ⟨answer, kept⟩ := same request List.mem_cons_self concrete abstract initial
    rw [answers, answers, answer,
      inductionHypothesis (fun later member => same later (List.mem_cons_of_mem _ member)) kept]

end Servers

/-! ### A pool of processes -/

section Pool

variable {Process Local : Type*} [Fintype Process] [DecidableEq Process]

omit [Fintype Process] in
/-- What some process holds is still held after one process moves, unless that one held it. -/
theorem exists_update (pool : Process → Local) (process : Process) (after : Local)
    (holds : Local → Prop) (held : ∃ other, holds (pool other)) :
    (∃ other, holds (Function.update pool process after other)) ∨ holds (pool process) := by
  obtain ⟨other, held⟩ := held
  by_cases same : other = process
  · exact Or.inr (same ▸ held)
  · exact Or.inl ⟨other, by rwa [Function.update_of_ne same]⟩

omit [Fintype Process] in
/-- What every process satisfies is kept when the one that moves comes to satisfy it. -/
theorem forall_update {pool : Process → Local} {process : Process} {after : Local}
    {holds : Local → Prop} (all : ∀ other, holds (pool other)) (moved : holds after)
    (other : Process) : holds (Function.update pool process after other) := by
  by_cases same : other = process
  · rw [same, Function.update_self]
    exact moved
  · rw [Function.update_of_ne same]
    exact all other

/-- When one process of a pool moves, the sum of a measure over the pool is that of the others and
what the measure is for the process from then on. -/
theorem sum_update {Amount : Type*} [AddCommMonoid Amount] (pool : Process → Local)
    (process : Process) (after : Local) (measure : Local → Amount) :
    (∑ other, measure (Function.update pool process after other)) =
      (∑ other ∈ Finset.univ.erase process, measure (pool other)) + measure after := by
  rw [← Finset.sum_erase_add Finset.univ _ (Finset.mem_univ process), Function.update_self]
  congr 1
  exact Finset.sum_congr rfl fun other member => by
    rw [Function.update_of_ne (Finset.ne_of_mem_erase member)]

/-- What the process measures after its move takes the place of what it measured before. -/
theorem sum_update_add {Amount : Type*} [AddCommMonoid Amount] (pool : Process → Local)
    (process : Process) (after : Local) (measure : Local → Amount) :
    (∑ other, measure (Function.update pool process after other)) + measure (pool process) =
      (∑ other, measure (pool other)) + measure after := by
  rw [sum_update, ← Finset.sum_erase_add Finset.univ (fun other => measure (pool other))
    (Finset.mem_univ process)]
  exact add_right_comm _ _ _

end Pool

end Transition
