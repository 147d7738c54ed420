/-
This file builds tables with a unique key: a list of rows no two of which have
the same key. The uniqueness is a field, so a table that breaks it cannot be
built. The one write is the upsert: it replaces the row of its key in place, and
appends a row when the key is new.
-/

import Mathlib.Data.List.Nodup

/-- A list of rows with a unique key. -/
structure KeyedTable (Row Key : Type*) (key : Row → Key) where
  rows : List Row
  unique : (rows.map key).Nodup

namespace KeyedTable

variable {Row Key : Type*} {key : Row → Key}

/-- The table without rows. -/
def empty : KeyedTable Row Key key := ⟨[], List.nodup_nil⟩

theorem ext_rows {first second : KeyedTable Row Key key} (same : first.rows = second.rows) :
    first = second := by
  cases first
  cases second
  cases same
  rfl

/-- Two rows of a table with the same key are the same row. -/
theorem eq_of_key_eq (table : KeyedTable Row Key key) {first second : Row}
    (memberFirst : first ∈ table.rows) (memberSecond : second ∈ table.rows)
    (same : key first = key second) : first = second :=
  List.inj_on_of_nodup_map table.unique memberFirst memberSecond same

variable [DecidableEq Key]

/-- The row of a key. -/
def find? (table : KeyedTable Row Key key) (wanted : Key) : Option Row :=
  table.rows.find? fun row => key row = wanted

theorem find?_eq_some_iff (table : KeyedTable Row Key key) {wanted : Key} {row : Row} :
    table.find? wanted = some row ↔ row ∈ table.rows ∧ key row = wanted := by
  constructor
  · intro found
    exact ⟨List.mem_of_find?_eq_some found, by simpa using List.find?_some found⟩
  · rintro ⟨member, keyed⟩
    cases found : table.find? wanted with
    | none =>
      have absent := List.find?_eq_none.mp found row member
      simp [keyed] at absent
    | some other =>
      have memberOther : other ∈ table.rows := List.mem_of_find?_eq_some found
      have keyedOther : key other = wanted := by simpa using List.find?_some found
      rw [table.eq_of_key_eq memberOther member (keyedOther.trans keyed.symm)]

theorem find?_eq_none_iff (table : KeyedTable Row Key key) {wanted : Key} :
    table.find? wanted = none ↔ ∀ row ∈ table.rows, key row ≠ wanted := by
  simp [find?]

/-- The rows after writing the row of one key: in place when the key has a row, at the end when
it is new. The written row is computed from the old one. -/
def upsertedRows (table : KeyedTable Row Key key) (target : Key) (write : Option Row → Row) :
    List Row :=
  match table.find? target with
  | some _ => table.rows.map fun row => if key row = target then write (some row) else row
  | none => table.rows ++ [write none]

theorem upsertedRows_unique (table : KeyedTable Row Key key) (target : Key)
    (write : Option Row → Row) (keyed : ∀ old, key (write old) = target) :
    ((table.upsertedRows target write).map key).Nodup := by
  unfold upsertedRows
  cases found : table.find? target with
  | some _ =>
    have keys : (table.rows.map fun row => if key row = target then write (some row) else row).map
        key = table.rows.map key := by
      rw [List.map_map]
      refine List.map_congr_left fun row _ => ?_
      rw [Function.comp_apply]
      by_cases same : key row = target
      · rw [if_pos same, keyed, same]
      · rw [if_neg same]
    simp only [keys]
    exact table.unique
  | none =>
    simp only [List.map_append, List.nodup_append]
    refine ⟨table.unique, List.nodup_singleton _, ?_⟩
    intro old memberOld new memberNew same
    obtain ⟨row, member, rfl⟩ := List.mem_map.mp memberOld
    have fresh := table.find?_eq_none_iff.mp found row member
    rw [List.map_singleton, List.mem_singleton, keyed] at memberNew
    exact fresh (same.trans memberNew)

/-- Writes the row of one key. -/
def upsert (table : KeyedTable Row Key key) (target : Key) (write : Option Row → Row)
    (keyed : ∀ old, key (write old) = target) : KeyedTable Row Key key where
  rows := table.upsertedRows target write
  unique := table.upsertedRows_unique target write keyed

variable (table : KeyedTable Row Key key) (target : Key) (write : Option Row → Row)
  (keyed : ∀ old, key (write old) = target)

/-- The rows after an upsert are the written row and the old rows of the other keys. -/
theorem mem_upsert {row : Row} : row ∈ (table.upsert target write keyed).rows ↔
    row = write (table.find? target) ∨ (row ∈ table.rows ∧ key row ≠ target) := by
  show row ∈ table.upsertedRows target write ↔ _
  unfold upsertedRows
  cases found : table.find? target with
  | some old =>
    obtain ⟨memberOld, keyOld⟩ := table.find?_eq_some_iff.mp found
    simp only [List.mem_map]
    constructor
    · rintro ⟨source, member, rfl⟩
      by_cases same : key source = target
      · rw [if_pos same, table.eq_of_key_eq member memberOld (same.trans keyOld.symm)]
        exact Or.inl rfl
      · rw [if_neg same]
        exact Or.inr ⟨member, same⟩
    · rintro (rfl | ⟨member, different⟩)
      · exact ⟨old, memberOld, if_pos keyOld⟩
      · exact ⟨row, member, if_neg different⟩
  | none =>
    have fresh := table.find?_eq_none_iff.mp found
    simp only [List.mem_append, List.mem_singleton]
    constructor
    · rintro (member | rfl)
      · exact Or.inr ⟨member, fresh row member⟩
      · exact Or.inl rfl
    · rintro (rfl | ⟨member, _⟩)
      · exact Or.inr rfl
      · exact Or.inl member

theorem find?_upsert_self :
    (table.upsert target write keyed).find? target = some (write (table.find? target)) :=
  (find?_eq_some_iff _).mpr ⟨(table.mem_upsert target write keyed).mpr (Or.inl rfl), keyed _⟩

theorem find?_upsert_of_ne {other : Key} (different : other ≠ target) :
    (table.upsert target write keyed).find? other = table.find? other := by
  cases found : table.find? other with
  | some row =>
    obtain ⟨member, keyRow⟩ := table.find?_eq_some_iff.mp found
    refine (find?_eq_some_iff _).mpr ⟨?_, keyRow⟩
    exact (table.mem_upsert target write keyed).mpr
      (Or.inr ⟨member, fun same => different (keyRow.symm.trans same)⟩)
  | none =>
    refine (find?_eq_none_iff _).mpr fun row member => ?_
    rcases (table.mem_upsert target write keyed).mp member with rfl | ⟨old, _⟩
    · rw [keyed]
      exact different.symm
    · exact table.find?_eq_none_iff.mp found row old

/-- An upsert that writes what the row of its key already is changes no row. -/
theorem upsert_eq_self {row : Row} (found : table.find? target = some row)
    (same : write (some row) = row) : table.upsert target write keyed = table := by
  refine ext_rows ?_
  show table.upsertedRows target write = table.rows
  simp only [upsertedRows, found]
  obtain ⟨member, keyRow⟩ := table.find?_eq_some_iff.mp found
  refine (List.map_congr_left fun other memberOther => ?_).trans (List.map_id _)
  by_cases hit : key other = target
  · rw [if_pos hit, table.eq_of_key_eq memberOther member (hit.trans keyRow.symm), same]
    rfl
  · rw [if_neg hit]
    rfl

end KeyedTable
