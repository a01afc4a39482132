/-
**Searching in a text, and texts that start alike.**

* `prefix_between` — a text between a start and one that starts with it starts with it too.
* `findSub` — where a text first occurs in another; `findSub_stable` — what follows does not matter.
-/

import Mathlib

namespace CloudTwin.Lib

variable {α : Type}

theorem cons_le_iff [LinearOrder α] {first other : α} {rest tail : List α} :
    first :: rest ≤ other :: tail ↔ first < other ∨ (first = other ∧ rest ≤ tail) := by
  rw [le_iff_lt_or_eq, List.cons_lt_cons_iff, List.cons.injEq, @le_iff_lt_or_eq _ _ rest tail]
  tauto

theorem nil_le_text [LinearOrder α] (text : List α) : [] ≤ text := by
  cases text with
  | nil => exact le_refl _
  | cons first rest => exact le_of_lt (List.nil_lt_cons first rest)

theorem prefix_le [LinearOrder α] {start : List α} :
    ∀ {text : List α}, start <+: text → start ≤ text := by
  induction start with
  | nil => exact fun _ => nil_le_text _
  | cons first start ih =>
    rintro _ ⟨rest, rfl⟩
    exact cons_le_iff.mpr (Or.inr ⟨rfl, ih (List.prefix_append start rest)⟩)

/-- **Texts that start alike stand together.** -/
theorem prefix_between [LinearOrder α] {start : List α} :
    ∀ {middle last : List α}, start <+: last → start ≤ middle → middle ≤ last → start <+: middle := by
  induction start with
  | nil => exact fun _ _ _ => List.nil_prefix
  | cons first start ih =>
    intro middle last starts above below
    obtain ⟨rest, rfl⟩ := starts
    cases middle with
    | nil => exact absurd (List.nil_lt_cons first start) (not_lt.mpr above)
    | cons other middle =>
      rw [List.cons_append] at below
      rw [cons_le_iff] at above below
      have same : first = other := by
        rcases above with less | ⟨same, _⟩
        · rcases below with more | ⟨same, _⟩
          · exact absurd (less.trans more) (lt_irrefl _)
          · exact same.symm
        · exact same
      subst same
      have aboveRest := (above.resolve_left (lt_irrefl _)).2
      have belowRest := (below.resolve_left (lt_irrefl _)).2
      exact List.cons_prefix_cons.mpr ⟨rfl, ih (List.prefix_append start rest) aboveRest belowRest⟩

variable [DecidableEq α]

/-- `str::find` with a text: where it first occurs. -/
def findSub (part : List α) : List α → Option Nat
  | [] => if part.isPrefixOf [] then some 0 else none
  | first :: rest =>
    if part.isPrefixOf (first :: rest) then some 0 else (findSub part rest).map fun index => index + 1

theorem findSub_start {part text : List α} (starts : part <+: text) : findSub part text = some 0 := by
  cases text with
  | nil => exact if_pos (List.isPrefixOf_iff_prefix.mpr starts)
  | cons first rest => exact if_pos (List.isPrefixOf_iff_prefix.mpr starts)

theorem findSub_length {part : List α} :
    ∀ {text : List α} {index : Nat}, findSub part text = some index →
      index + part.length ≤ text.length := by
  intro text
  induction text with
  | nil =>
    intro index found
    unfold findSub at found
    split at found
    · rename_i starts
      cases found
      rw [Nat.zero_add]
      exact (List.isPrefixOf_iff_prefix.mp starts).length_le
    · cases found
  | cons first rest ih =>
    intro index found
    unfold findSub at found
    split at found
    · rename_i starts
      cases found
      rw [Nat.zero_add]
      exact (List.isPrefixOf_iff_prefix.mp starts).length_le
    · obtain ⟨later, there, rfl⟩ := Option.map_eq_some_iff.mp found
      have := ih there
      rw [List.length_cons]
      omega

/-- **What follows the first occurrence does not matter.** -/
theorem findSub_stable {part : List α} :
    ∀ {text other : List α} {index : Nat}, findSub part text = some index →
      text.take (index + part.length) <+: other → findSub part other = some index := by
  intro text
  induction text with
  | nil =>
    intro other index found starts
    unfold findSub at found
    split at found
    · rename_i empty
      cases found
      have none : part = [] := List.prefix_nil.mp (List.isPrefixOf_iff_prefix.mp empty)
      rw [none]
      exact findSub_start List.nil_prefix
    · cases found
  | cons first rest ih =>
    intro other index found starts
    have long := findSub_length found
    unfold findSub at found
    split at found
    · rename_i here
      cases found
      have occurs := List.isPrefixOf_iff_prefix.mp here
      rw [Nat.zero_add, ← List.prefix_iff_eq_take.mp occurs] at starts
      exact findSub_start starts
    · rename_i absent
      obtain ⟨later, there, rfl⟩ := Option.map_eq_some_iff.mp found
      have whole := starts
      rw [show later + 1 + part.length = later + part.length + 1 by omega, List.take_succ_cons]
        at starts
      obtain ⟨after, rfl⟩ := starts
      rw [List.cons_append] at whole ⊢
      have away : ¬ part.isPrefixOf (first :: (rest.take (later + part.length) ++ after)) = true := by
        intro wrong
        refine absurd (List.isPrefixOf_iff_prefix.mpr ?_) absent
        have shorter := List.prefix_of_prefix_length_le (List.isPrefixOf_iff_prefix.mp wrong) whole
          (by rw [List.length_take]; omega)
        exact shorter.trans (List.take_prefix _ _)
      unfold findSub
      rw [if_neg away, ih there (List.prefix_append _ _)]
      rfl

/-- Nothing is found where the text does not occur. -/
theorem findSub_none {part : List α} :
    ∀ {text : List α}, findSub part text = none ↔ ¬ part <:+: text := by
  intro text
  induction text with
  | nil =>
    unfold findSub
    rw [List.infix_nil, ← List.prefix_nil, ← List.isPrefixOf_iff_prefix]
    split
    · rename_i starts
      exact ⟨nofun, fun absent => absurd starts absent⟩
    · rename_i absent
      exact ⟨fun _ => absent, fun _ => rfl⟩
  | cons first rest ih =>
    unfold findSub
    rw [List.infix_cons_iff, ← List.isPrefixOf_iff_prefix, not_or, ← ih]
    split
    · rename_i starts
      exact ⟨nofun, fun absent => absurd starts absent.1⟩
    · rename_i absent
      rw [Option.map_eq_none_iff]
      exact ⟨fun none => ⟨absent, none⟩, fun both => both.2⟩

end CloudTwin.Lib
