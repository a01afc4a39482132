/-
**Tables with an automatic row id.**

A table of a relational store whose primary key is an integer that the store hands out in
increasing order and never reuses (SQLite's `INTEGER PRIMARY KEY AUTOINCREMENT`). The rows are kept
in row-id order, which is the order an `ORDER BY id` scan reads them in.

* `Table α` — the rows with their ids, the next id, and the two facts that make it a table: the ids
  increase and stay below the next one. No operation can build anything else.
* `Table.get` — one row by its id. Every operation is described by what it does to `get`
  (`get_insert`, `get_update`, `get_delete`, `get_modify`), and that is how an invariant about one
  row is carried through a run.
-/

import Mathlib.Data.List.Basic
import Mathlib.Order.Basic

namespace CloudTwin.Lib

/-- **A table with an automatic row id.** -/
@[ext]
structure Table (α : Type) where
  rows : List (Nat × α)
  next : Nat
  ordered : rows.Pairwise fun first second => first.1 < second.1
  below : ∀ row ∈ rows, row.1 < next

namespace Table

variable {α : Type}

/-- No rows; the first id is `1`. -/
def empty : Table α where
  rows := []
  next := 1
  ordered := List.Pairwise.nil
  below := fun _ member => by cases member

/-- `INSERT`: the row gets the next id. -/
def insert (table : Table α) (value : α) : Table α where
  rows := table.rows ++ [(table.next, value)]
  next := table.next + 1
  ordered := by
    refine List.pairwise_append.mpr ⟨table.ordered, List.pairwise_singleton _ _, ?_⟩
    intro row member last memberLast
    rw [List.mem_singleton.mp memberLast]
    exact table.below row member
  below := by
    intro row member
    rcases List.mem_append.mp member with old | new
    · exact Nat.lt_succ_of_lt (table.below row old)
    · rw [List.mem_singleton.mp new]
      exact Nat.lt_succ_self _

/-- `UPDATE … SET … WHERE`: rewrite the rows that satisfy the condition. -/
def update (table : Table α) (condition : Nat → α → Bool) (change : α → α) : Table α where
  rows := table.rows.map fun row =>
    (row.1, if condition row.1 row.2 then change row.2 else row.2)
  next := table.next
  ordered := List.pairwise_map.mpr table.ordered
  below := by
    intro row member
    obtain ⟨old, memberOld, rfl⟩ := List.mem_map.mp member
    exact table.below old memberOld

/-- `DELETE … WHERE`: drop the rows that satisfy the condition. -/
def delete (table : Table α) (condition : Nat → α → Bool) : Table α where
  rows := table.rows.filter fun row => !condition row.1 row.2
  next := table.next
  ordered := table.ordered.filter _
  below := fun row member => table.below row (List.mem_of_mem_filter member)

/-- `UPDATE … SET … WHERE id = ?`. -/
def modify (table : Table α) (id : Nat) (change : α → α) : Table α :=
  table.update (fun other _ => other == id) change

/-- `SELECT … WHERE id = ?`. -/
def get (table : Table α) (id : Nat) : Option α :=
  table.rows.lookup id

/-- `SELECT … WHERE … ORDER BY id`: the rows that satisfy the condition, oldest id first. -/
def select (table : Table α) (condition : α → Bool) : List (Nat × α) :=
  table.rows.filter fun row => condition row.2

/-! ### Rows by id -/

theorem lookup_eq_some {rows : List (Nat × α)}
    (ordered : rows.Pairwise fun first second => first.1 < second.1) (id : Nat) (value : α) :
    rows.lookup id = some value ↔ (id, value) ∈ rows := by
  induction rows with
  | nil => simp
  | cons row rows ih =>
    obtain ⟨rowId, rowValue⟩ := row
    rw [List.pairwise_cons] at ordered
    rw [List.lookup_cons, List.mem_cons, Prod.mk.injEq]
    by_cases same : id = rowId
    · subst same
      have absent : (id, value) ∉ rows := fun member =>
        absurd (ordered.1 _ member) (Nat.lt_irrefl _)
      simp only [beq_self_eq_true, Option.some.injEq, true_and, absent, or_false]
      exact eq_comm
    · have different : (id == rowId) = false := beq_eq_false_iff_ne.mpr same
      simp only [different, same, false_and, false_or]
      exact ih ordered.2

/-- **A row by its id is a row of the table.** -/
theorem get_eq_some (table : Table α) (id : Nat) (value : α) :
    table.get id = some value ↔ (id, value) ∈ table.rows :=
  lookup_eq_some table.ordered id value

theorem get_eq_none (table : Table α) (id : Nat) :
    table.get id = none ↔ ∀ value, (id, value) ∉ table.rows := by
  rw [Option.eq_none_iff_forall_ne_some]
  exact forall_congr' fun value => not_congr (get_eq_some table id value)

theorem get_lt {table : Table α} {id : Nat} {value : α} (found : table.get id = some value) :
    id < table.next :=
  table.below _ ((get_eq_some table id value).mp found)

theorem get_next (table : Table α) : table.get table.next = none := by
  rw [get_eq_none]
  exact fun value member => Nat.lt_irrefl _ (table.below _ member)

@[simp] theorem get_empty (id : Nat) : (empty : Table α).get id = none := rfl

theorem mem_select (table : Table α) (condition : α → Bool) (id : Nat) (value : α) :
    (id, value) ∈ table.select condition ↔ table.get id = some value ∧ condition value = true := by
  rw [select, List.mem_filter, ← get_eq_some]

theorem select_ordered (table : Table α) (condition : α → Bool) :
    (table.select condition).Pairwise fun first second => first.1 < second.1 :=
  table.ordered.filter _

/-! ### What each operation does to a row -/

/-- Two tables with the same rows and the same next id are equal: a table is determined by `get`. -/
theorem ext_get {first second : Table α} (sameNext : first.next = second.next)
    (same : ∀ id, first.get id = second.get id) : first = second := by
  refine Table.ext ?_ sameNext
  have members : ∀ row, row ∈ first.rows ↔ row ∈ second.rows := fun row => by
    rw [← get_eq_some, ← get_eq_some, same]
  have distinct : ∀ table : Table α, table.rows.Nodup := fun table =>
    table.ordered.imp fun before equal => by rw [equal] at before; exact Nat.lt_irrefl _ before
  have perm : first.rows.Perm second.rows :=
    (List.perm_ext_iff_of_nodup (distinct first) (distinct second)).mpr members
  refine perm.eq_of_pairwise ?_ first.ordered second.ordered
  intro one other _ _ forward backward
  exact absurd (Nat.lt_trans forward backward) (Nat.lt_irrefl _)

theorem get_insert (table : Table α) (value : α) (id : Nat) :
    (table.insert value).get id = if id = table.next then some value else table.get id := by
  apply Option.ext
  intro found
  rw [get_eq_some]
  show (id, found) ∈ table.rows ++ [(table.next, value)] ↔ _
  rw [List.mem_append, List.mem_singleton, Prod.mk.injEq, ← get_eq_some]
  by_cases same : id = table.next
  · subst same
    rw [get_next, if_pos rfl]
    simp only [reduceCtorEq, true_and, false_or, Option.some.injEq]
    exact eq_comm
  · simp [same]

@[simp] theorem insert_next (table : Table α) (value : α) :
    (table.insert value).next = table.next + 1 := rfl

theorem get_update (table : Table α) (condition : Nat → α → Bool) (change : α → α) (id : Nat) :
    (table.update condition change).get id =
      (table.get id).map fun value => if condition id value then change value else value := by
  apply Option.ext
  intro found
  rw [get_eq_some, Option.map_eq_some_iff]
  show (id, found) ∈ table.rows.map _ ↔ _
  rw [List.mem_map]
  constructor
  · rintro ⟨⟨rowId, value⟩, member, same⟩
    obtain ⟨rfl, rfl⟩ := Prod.mk.inj same
    exact ⟨value, (get_eq_some table _ _).mpr member, rfl⟩
  · rintro ⟨value, here, rfl⟩
    exact ⟨(id, value), (get_eq_some table _ _).mp here, rfl⟩

@[simp] theorem update_next (table : Table α) (condition : Nat → α → Bool) (change : α → α) :
    (table.update condition change).next = table.next := rfl

theorem get_delete (table : Table α) (condition : Nat → α → Bool) (id : Nat) :
    (table.delete condition).get id = (table.get id).filter fun value => !condition id value := by
  apply Option.ext
  intro found
  rw [get_eq_some, Option.filter_eq_some_iff]
  show (id, found) ∈ table.rows.filter _ ↔ _
  rw [List.mem_filter, ← get_eq_some]

@[simp] theorem delete_next (table : Table α) (condition : Nat → α → Bool) :
    (table.delete condition).next = table.next := rfl

theorem get_modify (table : Table α) (id other : Nat) (change : α → α) :
    (table.modify id change).get other =
      if other = id then (table.get other).map change else table.get other := by
  rw [modify, get_update]
  by_cases same : other = id
  · simp [same]
  · simp [same]

@[simp] theorem modify_next (table : Table α) (id : Nat) (change : α → α) :
    (table.modify id change).next = table.next := rfl

/-- A deletion or an update that touches nothing leaves the table as it was. -/
theorem delete_eq_self {table : Table α} {condition : Nat → α → Bool}
    (none : ∀ id value, table.get id = some value → condition id value = false) :
    table.delete condition = table := by
  refine ext_get rfl fun id => ?_
  rw [get_delete]
  cases here : table.get id with
  | none => rfl
  | some value => simp [Option.filter, none id value here]

theorem update_eq_self {table : Table α} {condition : Nat → α → Bool} {change : α → α}
    (none : ∀ id value, table.get id = some value → condition id value = false) :
    table.update condition change = table := by
  refine ext_get rfl fun id => ?_
  rw [get_update]
  cases here : table.get id with
  | none => rfl
  | some value => simp [none id value here]

end Table

/-! ### Rows in a list

Tables whose key is not a row id are lists of rows. An `UPDATE` maps, a `DELETE` filters; a `SELECT`
of rows that neither touches finds what it found before. -/

section Rows

variable {α : Type} {rows : List α} {condition : α → Bool}

theorem filter_map_same {change : α → α}
    (kept : ∀ row ∈ rows, condition (change row) = condition row)
    (untouched : ∀ row ∈ rows, condition row = true → change row = row) :
    (rows.map change).filter condition = rows.filter condition := by
  induction rows with
  | nil => rfl
  | cons row rest ih =>
    have tail := ih (fun other member => kept other (List.mem_cons_of_mem _ member))
      fun other member => untouched other (List.mem_cons_of_mem _ member)
    rw [List.map_cons, List.filter_cons, List.filter_cons, tail, kept row List.mem_cons_self]
    by_cases selected : condition row = true
    · rw [if_pos selected, if_pos selected, untouched row List.mem_cons_self selected]
    · rw [if_neg selected, if_neg selected]

theorem filter_filter_same {keep : α → Bool}
    (untouched : ∀ row ∈ rows, condition row = true → keep row = true) :
    (rows.filter keep).filter condition = rows.filter condition := by
  rw [List.filter_filter]
  refine List.filter_congr fun row member => ?_
  by_cases selected : condition row = true
  · rw [selected, untouched row member selected, Bool.and_self]
  · rw [Bool.not_eq_true] at selected
    rw [selected, Bool.false_and]

theorem find_map_same {change : α → α}
    (kept : ∀ row ∈ rows, condition (change row) = condition row)
    (untouched : ∀ row ∈ rows, condition row = true → change row = row) :
    (rows.map change).find? condition = rows.find? condition := by
  rw [← List.head?_filter, ← List.head?_filter, filter_map_same kept untouched]

theorem find_filter_same {keep : α → Bool}
    (untouched : ∀ row ∈ rows, condition row = true → keep row = true) :
    (rows.filter keep).find? condition = rows.find? condition := by
  rw [← List.head?_filter, ← List.head?_filter, filter_filter_same untouched]

end Rows

end CloudTwin.Lib
