/-
**Text functions of SQLite.**

`length` and `substr` read a text as one that ends at its first U+0000; a comparison reads all of it.

* `length`, `substr` — the functions, `substr` from the first character on.
* `hasPrefix` — the search for a prefix that is written with them; `hasPrefix_iff`, what it finds.
-/

import CloudTwin.Lib.Text
import Mathlib.Data.List.TakeWhile

namespace CloudTwin.Lib.Sqlite

open Text

/-- What stands before the first U+0000. -/
def beforeNul (text : String) : List Char :=
  text.toList.takeWhile (· != '\x00')

/-- `length(text)`. -/
def length (text : String) : Nat :=
  (beforeNul text).length

/-- `substr(text, 1, count)`. -/
def substr (text : String) (count : Nat) : String :=
  String.ofList ((beforeNul text).take count)

/-- `substr(text, 1, length(start)) = start`. -/
def hasPrefix (text start : String) : Bool :=
  substr text (length start) == start

theorem beforeNul_append {start rest : List Char} (plain : '\x00' ∉ start) :
    (start ++ rest).takeWhile (· != '\x00') = start ++ rest.takeWhile (· != '\x00') := by
  refine List.takeWhile_append_of_pos fun char member => ?_
  exact bne_iff_ne.mpr fun nul => plain (nul ▸ member)

/-- **The texts that are found are those with the prefix, if it has no U+0000**, and none if it has
one. -/
theorem hasPrefix_iff {text start : String} :
    hasPrefix text start = true ↔ startsWith text start = true ∧ '\x00' ∉ start.toList := by
  unfold hasPrefix substr startsWith
  rw [beq_iff_eq, List.isPrefixOf_iff_prefix]
  constructor
  · intro same
    have whole : (beforeNul text).take (length start) = start.toList := by
      rw [← same, String.toList_ofList, same]
    refine ⟨?_, fun nul => ?_⟩
    · rw [← whole]
      exact (List.take_prefix _ _).trans (List.takeWhile_prefix _)
    · rw [← whole] at nul
      have kept := List.mem_takeWhile_imp (List.mem_of_mem_take nul)
      simp at kept
  · rintro ⟨⟨rest, whole⟩, plain⟩
    have count : length start = start.toList.length := by
      have all := @beforeNul_append _ [] plain
      rw [List.append_nil, List.takeWhile_nil, List.append_nil] at all
      rw [length, beforeNul, all]
    rw [count, beforeNul, ← whole, beforeNul_append plain, List.take_left, String.ofList_toList]

/-- A prefix with U+0000 is found nowhere. -/
theorem hasPrefix_nul {start : String} (nul : '\x00' ∈ start.toList) (text : String) :
    hasPrefix text start = false :=
  Bool.eq_false_iff.mpr fun found => (hasPrefix_iff.mp found).2 nul

end CloudTwin.Lib.Sqlite
