/-
This file builds the theory of an append-only log that one consumer group reads.

Entries are numbered from zero. The group has a position: the entries below it
have been delivered, or were there before the group. A delivered entry stays
pending until it is acknowledged. A read delivers new entries only, those at the
position and above, so an entry below the position that is neither acknowledged
nor in the reader's hands is never read again.
-/

import Mathlib.Data.List.Basic

/-- The reading state of a consumer group. -/
structure ReadingGroup where
  position : Nat
  pending : List Nat

/-- A log with at most one consumer group, and the entries acknowledged so far. -/
structure GroupedLog (Entry : Type*) where
  entries : List Entry
  group : Option ReadingGroup
  acknowledged : List Nat
  position_le : ∀ reading, group = some reading → reading.position ≤ entries.length
  pending_lt : ∀ reading, group = some reading → ∀ id ∈ reading.pending, id < reading.position

namespace GroupedLog

variable {Entry : Type*}

/-! ### The operations -/

/-- A log without entries and without a group. -/
def empty : GroupedLog Entry where
  entries := []
  group := none
  acknowledged := []
  position_le _ same := by cases same
  pending_lt _ same := by cases same

/-- Adds an entry at the end. -/
def append (log : GroupedLog Entry) (entry : Entry) : GroupedLog Entry where
  entries := log.entries ++ [entry]
  group := log.group
  acknowledged := log.acknowledged
  position_le reading same := by
    rw [List.length_append]
    exact Nat.le_trans (log.position_le reading same) (Nat.le_add_right _ _)
  pending_lt := log.pending_lt

/-- Creates the group at the end of the log; a group that exists stays as it is. -/
def createGroup (log : GroupedLog Entry) : GroupedLog Entry where
  entries := log.entries
  group := some (log.group.getD ⟨log.entries.length, []⟩)
  acknowledged := log.acknowledged
  position_le reading same := by
    obtain rfl := Option.some.inj same
    cases found : log.group with
    | none => exact Nat.le_refl _
    | some old => exact log.position_le old found
  pending_lt reading same := by
    obtain rfl := Option.some.inj same
    cases found : log.group with
    | none => exact fun _ member => absurd member List.not_mem_nil
    | some old => exact log.pending_lt old found

/-- The entries a read of at most `count` new entries delivers, with their numbers. -/
def fresh (log : GroupedLog Entry) (count : Nat) : List (Entry × Nat) :=
  match log.group with
  | none => []
  | some reading => (log.entries.zipIdx.drop reading.position).take count

theorem position_add_fresh_le (log : GroupedLog Entry) (count : Nat) {reading : ReadingGroup}
    (found : log.group = some reading) :
    reading.position + (log.fresh count).length ≤ log.entries.length := by
  have bound := log.position_le reading found
  simp only [fresh, found, List.length_take, List.length_drop, List.length_zipIdx]
  omega

/-- The numbers a read delivers are those from the position on. -/
theorem fresh_ids {log : GroupedLog Entry} {reading : ReadingGroup}
    (found : log.group = some reading) (count : Nat) :
    (log.fresh count).map Prod.snd =
      List.range' reading.position (log.fresh count).length := by
  simp only [fresh, found, List.map_take, List.map_drop, List.zipIdx_map_snd, List.length_take,
    List.length_drop, List.length_zipIdx, List.drop_range', Nat.zero_add, Nat.mul_one]
  rcases Nat.le_total count (log.entries.length - reading.position) with less | more
  · rw [List.take_range'_of_length_ge less, Nat.min_eq_left less]
  · rw [List.take_range'_of_length_le more, Nat.min_eq_right more]

theorem mem_fresh_ids {log : GroupedLog Entry} {count id : Nat} {reading : ReadingGroup}
    (found : log.group = some reading) :
    id ∈ (log.fresh count).map Prod.snd ↔
      reading.position ≤ id ∧ id < reading.position + (log.fresh count).length := by
  rw [fresh_ids found, List.mem_range'_1]

/-- Without a group nothing is delivered. -/
theorem group_of_mem_fresh {log : GroupedLog Entry} {count id : Nat}
    (delivered : id ∈ (log.fresh count).map Prod.snd) : ∃ reading, log.group = some reading := by
  cases found : log.group with
  | none =>
    simp only [fresh, found] at delivered
    cases delivered
  | some reading => exact ⟨reading, rfl⟩

/-- The log after the read. -/
def deliver (log : GroupedLog Entry) (count : Nat) : GroupedLog Entry where
  entries := log.entries
  group := log.group.map fun reading =>
    ⟨reading.position + (log.fresh count).length,
      reading.pending ++ (log.fresh count).map Prod.snd⟩
  acknowledged := log.acknowledged
  position_le reading same := by
    obtain ⟨old, found, rfl⟩ := Option.map_eq_some_iff.mp same
    exact log.position_add_fresh_le count found
  pending_lt reading same id member := by
    obtain ⟨old, found, rfl⟩ := Option.map_eq_some_iff.mp same
    rcases List.mem_append.mp member with pending | delivered
    · exact Nat.lt_of_lt_of_le (log.pending_lt old found id pending) (Nat.le_add_right _ _)
    · exact ((mem_fresh_ids found).mp delivered).2

/-- Acknowledges an entry. -/
def acknowledge (log : GroupedLog Entry) (id : Nat) : GroupedLog Entry where
  entries := log.entries
  group := log.group.map fun reading => ⟨reading.position, reading.pending.filter (· ≠ id)⟩
  acknowledged := id :: log.acknowledged
  position_le reading same := by
    obtain ⟨old, found, rfl⟩ := Option.map_eq_some_iff.mp same
    exact log.position_le old found
  pending_lt reading same other member := by
    obtain ⟨old, found, rfl⟩ := Option.map_eq_some_iff.mp same
    exact log.pending_lt old found other (List.mem_filter.mp member).1

/-- A delivered entry is the entry of its number. -/
theorem mem_fresh {log : GroupedLog Entry} {count : Nat} {entry : Entry} {id : Nat}
    (member : (entry, id) ∈ log.fresh count) : log.entries[id]? = some entry := by
  unfold fresh at member
  cases found : log.group with
  | none =>
    rw [found] at member
    cases member
  | some reading =>
    rw [found] at member
    exact List.mem_zipIdx_iff_getElem?.mp (List.mem_of_mem_drop (List.mem_of_mem_take member))

/-- Entries keep their numbers. -/
theorem getElem?_append {log : GroupedLog Entry} {id : Nat} {entry : Entry}
    (found : log.entries[id]? = some entry) (added : Entry) :
    (log.append added).entries[id]? = some entry := by
  obtain ⟨present, _⟩ := List.getElem?_eq_some_iff.mp found
  exact (List.getElem?_append_left present).trans found

/-! ### The entries to come -/

/-- The entries that reads to come deliver. -/
def undelivered (log : GroupedLog Entry) : List Entry :=
  match log.group with
  | none => []
  | some reading => log.entries.drop reading.position

theorem undelivered_of_none {log : GroupedLog Entry} (absent : log.group = none) :
    log.undelivered = [] := by
  rw [undelivered, absent]

theorem undelivered_append_of_some {log : GroupedLog Entry} {reading : ReadingGroup}
    (found : log.group = some reading) (entry : Entry) :
    (log.append entry).undelivered = log.undelivered ++ [entry] := by
  simp only [undelivered, append, found]
  exact List.drop_append_of_le_length (log.position_le reading found)

/-- An entry that is added is delivered last, or never when there is no group yet. -/
theorem undelivered_append (log : GroupedLog Entry) (entry : Entry) :
    (log.append entry).undelivered = log.undelivered ++ [entry] ∨
      (log.append entry).undelivered = log.undelivered := by
  cases found : log.group with
  | none =>
    have absent : (log.append entry).group = none := found
    exact Or.inr ((undelivered_of_none absent).trans (undelivered_of_none found).symm)
  | some reading => exact Or.inl (undelivered_append_of_some found entry)

/-- A new group has nothing to read. -/
theorem undelivered_createGroup (log : GroupedLog Entry) :
    log.createGroup.undelivered = log.undelivered := by
  cases found : log.group with
  | none =>
    simp only [undelivered, createGroup, found, Option.getD_none]
    exact List.drop_length
  | some reading => simp only [undelivered, createGroup, found, Option.getD_some]

/-- A read takes what it delivers from the front. -/
theorem undelivered_deliver (log : GroupedLog Entry) (count : Nat) :
    (log.fresh count).map Prod.fst ++ (log.deliver count).undelivered = log.undelivered := by
  cases found : log.group with
  | none =>
    have absent : (log.deliver count).group = none := by
      show log.group.map _ = none
      rw [found]
      rfl
    rw [undelivered_of_none found, undelivered_of_none absent, fresh, found]
    rfl
  | some reading =>
    have bound := log.position_add_fresh_le count found
    have handed : (log.fresh count).map Prod.fst =
        (log.entries.drop reading.position).take count := by
      simp only [fresh, found, List.map_take, List.map_drop, List.zipIdx_map_fst]
    have length : (log.fresh count).length =
        ((log.entries.drop reading.position).take count).length := by
      rw [← handed, List.length_map]
    simp only [undelivered, deliver, found, Option.map_some]
    rw [handed, length, ← List.drop_drop, List.length_take]
    rcases Nat.le_total count (log.entries.drop reading.position).length with less | more
    · rw [Nat.min_eq_left less, List.take_append_drop]
    · rw [Nat.min_eq_right more, List.take_of_length_le more, List.drop_length, List.append_nil]

theorem undelivered_acknowledge (log : GroupedLog Entry) (id : Nat) :
    (log.acknowledge id).undelivered = log.undelivered := by
  cases found : log.group with
  | none => simp only [undelivered, acknowledge, found, Option.map_none]
  | some reading => simp only [undelivered, acknowledge, found, Option.map_some]

/-! ### Entries are not lost -/

/-- The entry is acknowledged, or some read to come delivers it, or it is in hand. -/
def Located (log : GroupedLog Entry) (inHand : List Nat) (id : Nat) : Prop :=
  id ∈ log.acknowledged ∨ (∀ reading, log.group = some reading → reading.position ≤ id) ∨
    id ∈ inHand

/-- No entry of the log is lost, while a reader has the entries `inHand`. -/
def NoneLost (log : GroupedLog Entry) (inHand : List Nat) : Prop :=
  ∀ id < log.entries.length, log.Located inHand id

theorem noneLost_empty : (empty : GroupedLog Entry).NoneLost [] :=
  fun _ absent => absurd absent (Nat.not_lt_zero _)

variable {log : GroupedLog Entry} {inHand : List Nat}

theorem NoneLost.append (kept : log.NoneLost inHand) (entry : Entry) :
    (log.append entry).NoneLost inHand := by
  intro id present
  by_cases old : id < log.entries.length
  · exact kept id old
  · exact Or.inr (Or.inl fun reading found =>
      Nat.le_trans (log.position_le reading found) (Nat.le_of_not_lt old))

/-- Creating a group loses no entry when there is none yet, or the group is there already. -/
theorem NoneLost.createGroup (kept : log.NoneLost inHand)
    (early : log.group = none → log.entries = []) : log.createGroup.NoneLost inHand := by
  intro id present
  cases found : log.group with
  | none =>
    have absent : log.entries.length = 0 := List.length_eq_zero_iff.mpr (early found)
    exact absurd present (by simp [GroupedLog.createGroup, absent])
  | some old =>
    rcases kept id present with acknowledged | ahead | held
    · exact Or.inl acknowledged
    · refine Or.inr (Or.inl fun reading same => ?_)
      have unchanged : reading = old := by
        simpa [GroupedLog.createGroup, found] using same.symm
      exact unchanged ▸ ahead old found
    · exact Or.inr (Or.inr held)

/-- A read hands over what it delivers. -/
theorem NoneLost.deliver (kept : log.NoneLost []) (count : Nat) :
    (log.deliver count).NoneLost ((log.fresh count).map Prod.snd) := by
  intro id present
  rcases kept id present with acknowledged | ahead | held
  · exact Or.inl acknowledged
  · by_cases handed : id ∈ (log.fresh count).map Prod.snd
    · exact Or.inr (Or.inr handed)
    · refine Or.inr (Or.inl fun reading same => ?_)
      obtain ⟨old, found, rfl⟩ := Option.map_eq_some_iff.mp same
      have from_ := ahead old found
      rw [mem_fresh_ids found] at handed
      simp only
      omega
  · exact absurd held List.not_mem_nil

/-- Acknowledging takes an entry out of hand. -/
theorem NoneLost.acknowledge {id : Nat} (kept : log.NoneLost (id :: inHand)) :
    (log.acknowledge id).NoneLost inHand := by
  intro other present
  rcases kept other present with acknowledged | ahead | held
  · exact Or.inl (List.mem_cons_of_mem _ acknowledged)
  · refine Or.inr (Or.inl fun reading same => ?_)
    obtain ⟨old, found, rfl⟩ := Option.map_eq_some_iff.mp same
    exact ahead old found
  · rcases List.mem_cons.mp held with rfl | held
    · exact Or.inl List.mem_cons_self
    · exact Or.inr (Or.inr held)

/-! ### A lost entry stays lost -/

/-- The entry is in the log, below the position, and neither acknowledged nor in hand. -/
def Lost (log : GroupedLog Entry) (inHand : List Nat) (id : Nat) : Prop :=
  id < log.entries.length ∧ ¬ log.Located inHand id

theorem not_noneLost_iff : ¬ log.NoneLost inHand ↔ ∃ id, log.Lost inHand id := by
  simp only [NoneLost, Lost, not_forall, exists_prop]

variable {id : Nat}

/-- A reader with less in hand does not find it. -/
theorem Lost.subset (lost : log.Lost inHand id) {fewer : List Nat} (less : fewer ⊆ inHand) :
    log.Lost fewer id :=
  ⟨lost.1, fun located => lost.2 (located.imp_right (Or.imp_right fun held => less held))⟩

/-- The group has read past it. -/
theorem Lost.passed (lost : log.Lost inHand id) :
    ∃ reading, log.group = some reading ∧ id < reading.position := by
  by_contra none
  refine lost.2 (Or.inr (Or.inl fun reading found => Nat.le_of_not_lt fun passed => ?_))
  exact none ⟨reading, found, passed⟩

theorem Lost.append (lost : log.Lost inHand id) (entry : Entry) :
    (log.append entry).Lost inHand id := by
  refine ⟨?_, lost.2⟩
  show id < (log.entries ++ [entry]).length
  rw [List.length_append]
  exact Nat.lt_add_right _ lost.1

theorem Lost.createGroup (lost : log.Lost inHand id) : log.createGroup.Lost inHand id := by
  obtain ⟨reading, found, _⟩ := lost.passed
  have same : log.createGroup = log := by
    unfold GroupedLog.createGroup
    simp only [found, Option.getD_some]
    cases log
    cases found
    rfl
  rwa [same]

/-- A read delivers from the position on. -/
theorem Lost.deliver (lost : log.Lost inHand id) (count : Nat) :
    (log.deliver count).Lost ((log.fresh count).map Prod.snd) id := by
  obtain ⟨reading, found, passed⟩ := lost.passed
  refine ⟨lost.1, ?_⟩
  rintro (acknowledged | ahead | held)
  · exact lost.2 (Or.inl acknowledged)
  · have beyond := ahead _ (Option.map_eq_some_iff.mpr ⟨reading, found, rfl⟩)
    exact absurd passed (Nat.not_lt.mpr (Nat.le_trans (Nat.le_add_right _ _) beyond))
  · exact absurd passed (Nat.not_lt.mpr ((mem_fresh_ids found).mp held).1)

theorem Lost.acknowledge {other : Nat} (lost : log.Lost (other :: inHand) id) :
    (log.acknowledge other).Lost inHand id := by
  refine ⟨lost.1, ?_⟩
  rintro (acknowledged | ahead | held)
  · rcases List.mem_cons.mp acknowledged with rfl | acknowledged
    · exact lost.2 (Or.inr (Or.inr List.mem_cons_self))
    · exact lost.2 (Or.inl acknowledged)
  · refine lost.2 (Or.inr (Or.inl fun reading found => ?_))
    have beyond := ahead _ (Option.map_eq_some_iff.mpr ⟨reading, found, rfl⟩)
    exact beyond
  · exact lost.2 (Or.inr (Or.inr (List.mem_cons_of_mem _ held)))

/-! ### What is in hand -/

/-- The position of the group is above the entry. -/
def Delivered (log : GroupedLog Entry) (id : Nat) : Prop :=
  ∃ reading, log.group = some reading ∧ id < reading.position

/-- What is acknowledged or in hand was delivered, and what is in hand is there once and is not
acknowledged. -/
structure Orderly (log : GroupedLog Entry) (inHand : List Nat) : Prop where
  acknowledged : ∀ id ∈ log.acknowledged, log.Delivered id
  held : ∀ id ∈ inHand, log.Delivered id
  open_ : ∀ id ∈ inHand, id ∉ log.acknowledged
  distinct : inHand.Nodup

theorem Delivered.lt_length (delivered : log.Delivered id) : id < log.entries.length := by
  obtain ⟨reading, found, passed⟩ := delivered
  exact Nat.lt_of_lt_of_le passed (log.position_le reading found)

theorem orderly_empty : (empty : GroupedLog Entry).Orderly [] :=
  ⟨nofun, nofun, nofun, List.nodup_nil⟩

theorem Orderly.sublist (orderly : log.Orderly inHand) {fewer : List Nat}
    (less : fewer.Sublist inHand) : log.Orderly fewer :=
  ⟨orderly.acknowledged, fun id held => orderly.held id (less.subset held),
    fun id held => orderly.open_ id (less.subset held), orderly.distinct.sublist less⟩

theorem Orderly.append (orderly : log.Orderly inHand) (entry : Entry) :
    (log.append entry).Orderly inHand :=
  ⟨orderly.acknowledged, orderly.held, orderly.open_, orderly.distinct⟩

theorem Delivered.createGroup (delivered : log.Delivered id) : log.createGroup.Delivered id := by
  obtain ⟨reading, found, passed⟩ := delivered
  refine ⟨reading, ?_, passed⟩
  show some (log.group.getD _) = some reading
  rw [found]
  rfl

theorem Orderly.createGroup (orderly : log.Orderly inHand) : log.createGroup.Orderly inHand :=
  ⟨fun id done => (orderly.acknowledged id done).createGroup,
    fun id held => (orderly.held id held).createGroup, orderly.open_, orderly.distinct⟩

theorem Orderly.deliver (orderly : log.Orderly inHand) (count : Nat) :
    (log.deliver count).Orderly ((log.fresh count).map Prod.snd) where
  acknowledged id done := by
    obtain ⟨reading, found, passed⟩ := orderly.acknowledged id done
    exact ⟨_, Option.map_eq_some_iff.mpr ⟨reading, found, rfl⟩, Nat.lt_add_right _ passed⟩
  held id delivered := by
    obtain ⟨reading, found⟩ := group_of_mem_fresh delivered
    exact ⟨_, Option.map_eq_some_iff.mpr ⟨reading, found, rfl⟩,
      ((mem_fresh_ids found).mp delivered).2⟩
  open_ id delivered done := by
    obtain ⟨reading, found, passed⟩ := orderly.acknowledged id done
    exact absurd passed (Nat.not_lt.mpr ((mem_fresh_ids found).mp delivered).1)
  distinct := by
    cases found : log.group with
    | none =>
      simp only [fresh, found]
      exact List.nodup_nil
    | some reading =>
      rw [fresh_ids found]
      exact List.nodup_range'

theorem Orderly.acknowledge {other : Nat} (orderly : log.Orderly (other :: inHand)) :
    (log.acknowledge other).Orderly inHand where
  acknowledged id done := by
    obtain ⟨reading, found, passed⟩ : log.Delivered id := by
      rcases List.mem_cons.mp done with rfl | done
      · exact orderly.held id List.mem_cons_self
      · exact orderly.acknowledged id done
    exact ⟨_, Option.map_eq_some_iff.mpr ⟨reading, found, rfl⟩, passed⟩
  held id held := by
    obtain ⟨reading, found, passed⟩ := orderly.held id (List.mem_cons_of_mem _ held)
    exact ⟨_, Option.map_eq_some_iff.mpr ⟨reading, found, rfl⟩, passed⟩
  open_ id held done := by
    rcases List.mem_cons.mp done with rfl | done
    · exact (List.nodup_cons.mp orderly.distinct).1 held
    · exact orderly.open_ id (List.mem_cons_of_mem _ held) done
  distinct := (List.nodup_cons.mp orderly.distinct).2

/-- An entry that a reader drops is lost: while none is lost, all that was in hand still is. -/
theorem Orderly.subset_of_noneLost (orderly : log.Orderly inHand) {left : List Nat}
    (kept : log.NoneLost left) : inHand ⊆ left := by
  intro id held
  have delivered := orderly.held id held
  rcases kept id delivered.lt_length with done | ahead | still
  · exact absurd done (orderly.open_ id held)
  · obtain ⟨reading, found, passed⟩ := delivered
    exact absurd passed (Nat.not_lt.mpr (ahead reading found))
  · exact still

/-- Creating the group at the end of a log with entries loses them. -/
theorem Orderly.entries_of_createGroup (orderly : log.Orderly inHand)
    (kept : log.createGroup.NoneLost []) (absent : log.group = none) : log.entries = [] := by
  by_contra filled
  rcases kept 0 (List.length_pos_iff.mpr filled) with done | ahead | held
  · obtain ⟨reading, found, _⟩ := orderly.acknowledged 0 done
    rw [absent] at found
    cases found
  · have created : log.createGroup.group = some ⟨log.entries.length, []⟩ := by
      show some (log.group.getD _) = _
      rw [absent]
      rfl
    exact filled (List.length_eq_zero_iff.mp (Nat.le_zero.mp (ahead _ created)))
  · cases held

/-- A read whose reply is dropped loses what it delivered. -/
theorem Orderly.fresh_of_deliver (orderly : log.Orderly inHand) {count : Nat}
    (kept : (log.deliver count).NoneLost []) : log.fresh count = [] :=
  List.map_eq_nil_iff.mp
    (List.eq_nil_of_subset_nil ((orderly.deliver count).subset_of_noneLost kept))

/-! ### The way to an entry -/

/-- The position of the group. -/
def readTo (log : GroupedLog Entry) : Option Nat := log.group.map ReadingGroup.position

/-- No read has delivered the entry of the number, which may be still to come. -/
def Unread (log : GroupedLog Entry) (id : Nat) : Prop :=
  ∀ position, log.readTo = some position → position ≤ id

/-- How many entries the group still has to read until it has read this one. -/
def distance (log : GroupedLog Entry) (id : Nat) : Nat := id + 1 - log.readTo.getD 0

theorem readTo_of_group {reading : ReadingGroup} (found : log.group = some reading) :
    log.readTo = some reading.position := by
  rw [readTo, found]
  rfl

theorem readTo_acknowledge (log : GroupedLog Entry) (id : Nat) :
    (log.acknowledge id).readTo = log.readTo := by
  show (log.group.map _).map _ = _
  rw [Option.map_map]
  rfl

theorem readTo_deliver (log : GroupedLog Entry) (count : Nat) :
    (log.deliver count).readTo = log.readTo.map (· + (log.fresh count).length) := by
  show (log.group.map _).map _ = _
  rw [Option.map_map, readTo, Option.map_map]
  rfl

/-- A read delivers an unread entry or leaves it unread. -/
theorem Unread.deliver (unread : log.Unread id) (count : Nat) :
    id ∈ (log.fresh count).map Prod.snd ∨ (log.deliver count).Unread id := by
  by_cases handed : id ∈ (log.fresh count).map Prod.snd
  · exact Or.inl handed
  · refine Or.inr fun position same => ?_
    obtain ⟨reading, found, rfl⟩ := Option.map_eq_some_iff.mp
      ((Option.map_map _ _ _).symm.trans same)
    have before : reading.position ≤ id := unread _ (readTo_of_group found)
    rw [mem_fresh_ids found, not_and, Nat.not_lt] at handed
    exact handed before

/-- A read that delivers something comes nearer to an unread entry. -/
theorem distance_deliver_lt (unread : log.Unread id) {count : Nat}
    (delivers : log.fresh count ≠ []) : (log.deliver count).distance id < log.distance id := by
  have moves : 0 < (log.fresh count).length := List.length_pos_iff.mpr delivers
  rw [distance, distance, readTo_deliver]
  cases found : log.group with
  | none =>
    simp only [fresh, found] at delivers
    exact absurd rfl delivers
  | some reading =>
    have before : reading.position ≤ id := unread _ (readTo_of_group found)
    rw [readTo_of_group found, Option.map_some, Option.getD_some, Option.getD_some]
    omega

/-- As long as an entry of the log is unread, there is something to read. -/
theorem Unread.undelivered_ne_nil (unread : log.Unread id) (grouped : log.readTo ≠ none)
    (present : id < log.entries.length) : log.undelivered ≠ [] := by
  obtain ⟨position, same⟩ := Option.ne_none_iff_exists'.mp grouped
  obtain ⟨reading, found, rfl⟩ := Option.map_eq_some_iff.mp same
  have before : reading.position ≤ id := unread _ same
  rw [undelivered, found]
  exact fun drained => by
    have short := List.drop_eq_nil_iff.mp drained
    omega

/-- A read finds what is there to read. -/
theorem fresh_ne_nil {count : Nat} (counts : 0 < count) (waits : log.undelivered ≠ []) :
    log.fresh count ≠ [] := by
  cases found : log.group with
  | none => exact absurd (undelivered_of_none found) waits
  | some reading =>
    rw [undelivered, found] at waits
    have left : reading.position < log.entries.length := by
      by_contra past
      exact waits (List.drop_eq_nil_iff.mpr (Nat.le_of_not_lt past))
    refine List.ne_nil_of_length_pos ?_
    simp only [fresh, found, List.length_take, List.length_drop, List.length_zipIdx]
    omega

/-! ### Entries that are read once -/

/-- The position of the group has not moved back. -/
def Further (log next : GroupedLog Entry) : Prop :=
  ∀ position, log.readTo = some position → ∃ later, next.readTo = some later ∧ position ≤ later

theorem Further.of_eq {next : GroupedLog Entry} (same : next.readTo = log.readTo) :
    log.Further next :=
  fun position found => ⟨position, same.trans found, Nat.le_refl position⟩

theorem further_createGroup (log : GroupedLog Entry) : log.Further log.createGroup := by
  intro position found
  obtain ⟨reading, grouped, rfl⟩ := Option.map_eq_some_iff.mp found
  refine ⟨reading.position, readTo_of_group ?_, Nat.le_refl _⟩
  show some (log.group.getD _) = some reading
  rw [grouped]
  rfl

theorem further_deliver (log : GroupedLog Entry) (count : Nat) : log.Further (log.deliver count) := by
  intro position found
  rw [readTo_deliver, found]
  exact ⟨_, rfl, Nat.le_add_right _ _⟩

/-- The numbers ascend, and the entries under them have been delivered. -/
structure Ascending (log : GroupedLog Entry) (ids : List Nat) : Prop where
  sorted : ids.Pairwise (· < ·)
  delivered : ∀ id ∈ ids, ∃ position, log.readTo = some position ∧ id < position

theorem ascending_nil (log : GroupedLog Entry) : log.Ascending [] :=
  ⟨List.Pairwise.nil, List.forall_mem_nil _⟩

theorem Ascending.sublist {ids fewer : List Nat} (ascending : log.Ascending ids)
    (less : fewer.Sublist ids) : log.Ascending fewer :=
  ⟨ascending.sorted.sublist less, fun id member => ascending.delivered id (less.subset member)⟩

theorem Ascending.further {ids : List Nat} {next : GroupedLog Entry}
    (ascending : log.Ascending ids) (further : log.Further next) : next.Ascending ids := by
  refine ⟨ascending.sorted, fun id member => ?_⟩
  obtain ⟨position, found, before⟩ := ascending.delivered id member
  obtain ⟨later, read, after⟩ := further position found
  exact ⟨later, read, Nat.lt_of_lt_of_le before after⟩

/-- A read delivers what comes after all that was delivered before. -/
theorem Ascending.deliver {ids : List Nat} (ascending : log.Ascending ids) (count : Nat) :
    (log.deliver count).Ascending (ids ++ (log.fresh count).map Prod.snd) := by
  have before := ascending.further (further_deliver log count)
  cases found : log.group with
  | none =>
    have none : log.fresh count = [] := by simp only [fresh, found]
    rw [none, List.map_nil, List.append_nil]
    exact before
  | some reading =>
    have read : log.readTo = some reading.position := readTo_of_group found
    refine ⟨List.pairwise_append.mpr ⟨ascending.sorted, ?_, fun early member late fresh => ?_⟩,
      fun id member => ?_⟩
    · rw [fresh_ids found]
      exact List.pairwise_lt_range'
    · obtain ⟨position, same, below⟩ := ascending.delivered early member
      obtain rfl : reading.position = position := Option.some.inj (read.symm.trans same)
      exact Nat.lt_of_lt_of_le below ((mem_fresh_ids found).mp fresh).1
    · rcases List.mem_append.mp member with old | fresh
      · exact before.delivered id old
      · refine ⟨_, ?_, ((mem_fresh_ids found).mp fresh).2⟩
        rw [readTo_deliver, read]
        rfl

end GroupedLog
