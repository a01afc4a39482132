/-
**Tables with a key.**

A table of a relational store whose rows have a key of their own (a `PRIMARY KEY` or a `UNIQUE`
constraint). What such a table is for is the row of each key, and every operation is described by
what it does to it.

* `Keyed key` — the rows, and that no key is there twice.
* `Keyed.find` — the row of a key; `find_insert`, `find_modify`, `find_remove`, `find_erase` say what
  an operation does to it.
-/

import Mathlib.Data.List.Nodup
import Mathlib.Logic.Function.Basic

namespace CloudTwin.Lib

variable {ρ κ : Type} [DecidableEq κ] {key : ρ → κ}

/-- **A table with a key.** -/
structure Keyed (key : ρ → κ) where
  rows : List ρ
  unique : (rows.map key).Nodup

namespace Keyed

def empty : Keyed key := ⟨[], List.nodup_nil⟩

/-- The row of a key. -/
def find (table : Keyed key) (place : κ) : Option ρ :=
  table.rows.find? fun row => key row == place

theorem find_some {table : Keyed key} {place : κ} {row : ρ} (found : table.find place = some row) :
    row ∈ table.rows ∧ key row = place := by
  unfold find at found
  have same := List.find?_some found
  exact ⟨List.mem_of_find?_eq_some found, beq_iff_eq.mp same⟩

theorem find_none {table : Keyed key} {place : κ} :
    table.find place = none ↔ place ∉ table.rows.map key := by
  unfold find
  rw [List.find?_eq_none]
  constructor
  · intro away member
    obtain ⟨row, inside, rfl⟩ := List.mem_map.mp member
    exact away row inside (beq_self_eq_true _)
  · intro away row inside same
    exact away (List.mem_map.mpr ⟨row, inside, beq_iff_eq.mp same⟩)

/-- A row is the row of its key. -/
theorem find_mem {table : Keyed key} {row : ρ} (member : row ∈ table.rows) :
    table.find (key row) = some row := by
  cases found : table.find (key row) with
  | none => exact absurd (List.mem_map_of_mem member) (find_none.mp found)
  | some other =>
    obtain ⟨inside, same⟩ := find_some found
    rw [List.inj_on_of_nodup_map table.unique inside member same]

/-- `INSERT … ON CONFLICT DO NOTHING`. -/
def insert (table : Keyed key) (row : ρ) : Keyed key :=
  if absent : table.find (key row) = none then
    { rows := table.rows ++ [row]
      unique := by
        rw [List.map_append, List.map_singleton]
        refine List.nodup_append.mpr ⟨table.unique, List.nodup_singleton _, fun one old other new => ?_⟩
        rw [List.mem_singleton.mp new]
        rintro rfl
        exact find_none.mp absent old }
  else table

theorem rows_insert {table : Keyed key} (row : ρ) (absent : table.find (key row) = none) :
    (table.insert row).rows = table.rows ++ [row] := by
  unfold insert
  rw [dif_pos absent]

theorem find_insert {table : Keyed key} (row : ρ) (absent : table.find (key row) = none) :
    (table.insert row).find = Function.update table.find (key row) (some row) := by
  funext place
  unfold find
  rw [rows_insert row absent, List.find?_append]
  by_cases same : place = key row
  · subst same
    have gone : table.rows.find? (fun other => key other == key row) = none := absent
    rw [Function.update_self, gone]
    simp
  · have alone : [row].find? (fun other => key other == place) = none := by
      refine List.find?_eq_none.mpr fun other member wrong => same ?_
      rw [← List.mem_singleton.mp member]
      exact (beq_iff_eq.mp wrong).symm
    rw [Function.update_of_ne same, alone, Option.or_none]

/-- A row with the change, if it has the key. -/
def changed (key : ρ → κ) (place : κ) (change : ρ → ρ) (row : ρ) : ρ :=
  if key row = place then change row else row

theorem key_changed {change : ρ → ρ} (kept : ∀ row, key (change row) = key row) (place : κ) (row : ρ) :
    key (changed key place change row) = key row := by
  unfold changed
  split
  · exact kept row
  · rfl

/-- `UPDATE … WHERE` of one key; the change leaves the key. -/
def modify (table : Keyed key) (place : κ) (change : ρ → ρ) (kept : ∀ row, key (change row) = key row) :
    Keyed key where
  rows := table.rows.map (changed key place change)
  unique := by
    have keys : (table.rows.map (changed key place change)).map key = table.rows.map key := by
      rw [List.map_map]
      exact List.map_congr_left fun row _ => key_changed kept place row
    rw [keys]
    exact table.unique

theorem find_modify (table : Keyed key) {place : κ} {change : ρ → ρ} {row : ρ}
    (kept : ∀ row, key (change row) = key row) (found : table.find place = some row) :
    (table.modify place change kept).find = Function.update table.find place (some (change row)) := by
  funext other
  have moved : (table.modify place change kept).find other =
      (table.find other).map (changed key place change) := by
    unfold modify find
    rw [List.find?_map]
    refine congrArg (fun rest : ρ → Bool => (table.rows.find? rest).map _) (funext fun row => ?_)
    show (key (changed key place change row) == other) = _
    rw [key_changed kept]
  rw [moved]
  by_cases same : other = place
  · subst same
    rw [Function.update_self, found, Option.map_some, changed, if_pos (find_some found).2]
  · rw [Function.update_of_ne same]
    cases there : table.find other with
    | none => rfl
    | some old =>
      rw [Option.map_some, changed, if_neg fun wrong => same ((find_some there).2.symm.trans wrong)]

/-- `DELETE … WHERE`, a condition on the key. -/
def remove (table : Keyed key) (gone : κ → Bool) : Keyed key where
  rows := table.rows.filter fun row => !gone (key row)
  unique := (List.filter_sublist.map key).nodup table.unique

theorem find_remove (table : Keyed key) (gone : κ → Bool) :
    (table.remove gone).find = fun place => if gone place then none else table.find place := by
  funext place
  unfold remove find
  rw [List.find?_filter]
  by_cases away : gone place = true
  · rw [if_pos away, List.find?_eq_none]
    intro row _ both
    obtain ⟨stays, same⟩ := of_decide_eq_true both
    rw [beq_iff_eq.mp same, away] at stays
    cases stays
  · rw [if_neg away]
    refine congrArg (List.find? · table.rows) (funext fun row => ?_)
    by_cases here : key row = place
    · simp [here, away]
    · simp [here]

/-- `DELETE … WHERE` of one key. -/
def erase (table : Keyed key) (place : κ) : Keyed key :=
  table.remove fun other => decide (other = place)

theorem find_erase (table : Keyed key) (place : κ) :
    (table.erase place).find = Function.update table.find place none := by
  unfold erase
  rw [find_remove]
  funext other
  by_cases same : other = place
  · rw [same, Function.update_self, if_pos (decide_eq_true rfl)]
  · rw [Function.update_of_ne same, if_neg fun wrong => same (of_decide_eq_true wrong)]

/-- What is seen of the rows changes where the rows do. -/
theorem map_update {α : Type} (rows : κ → Option ρ) (seen : ρ → α) (place : κ) (row : Option ρ) :
    (fun other => (Function.update rows place row other).map seen) =
      Function.update (fun other => (rows other).map seen) place (row.map seen) := by
  funext other
  by_cases same : other = place
  · rw [same, Function.update_self, Function.update_self]
  · rw [Function.update_of_ne same, Function.update_of_ne same]

end Keyed

end CloudTwin.Lib
