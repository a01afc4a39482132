/-
**Looking for delimiters.**

* `slice`, `sliceFrom` — slices that panic out of range.
* `findFrom` — the first place from a position on where a text occurs.
* `findSub_skip`, `findSub_behind`, `findSub_sentinel` — a text is found behind what cannot hold its
  first character, behind a character it does not hold, and where it first stands if its first
  character stands nowhere else in it.
-/

import CloudTwin.Lib.Glob

namespace CloudTwin.Lib

variable {α : Type}

/-- `text[start..stop]`: `none` is the panic. -/
def slice (text : List α) (start stop : Nat) : Option (List α) :=
  if start ≤ stop ∧ stop ≤ text.length then some ((text.drop start).take (stop - start)) else none

/-- `text[start..]`: `none` is the panic. -/
def sliceFrom (text : List α) (start : Nat) : Option (List α) :=
  if start ≤ text.length then some (text.drop start) else none

theorem sliceFrom_append (before after : List α) :
    sliceFrom (before ++ after) before.length = some after := by
  rw [sliceFrom, if_pos (by rw [List.length_append]; omega), List.drop_left]

theorem slice_append (before middle after : List α) :
    slice (before ++ (middle ++ after)) before.length (before.length + middle.length) =
      some middle := by
  rw [slice, if_pos (by simp only [List.length_append]; omega), List.drop_left,
    Nat.add_sub_cancel_left, List.take_left]

theorem slice_start (before after : List α) :
    slice (before ++ after) 0 before.length = some before := by
  have whole := slice_append [] before after
  rw [List.nil_append, List.length_nil, Nat.zero_add] at whole
  exact whole

variable [DecidableEq α]

/-- The first place from a position on where a text occurs. -/
def findFrom (text part : List α) (start : Nat) : Option Nat :=
  if text.length < start ∨ part = [] then none
  else (findSub part (text.drop start)).map fun index => index + start

theorem findFrom_bounds {text part : List α} {start index : Nat}
    (found : findFrom text part start = some index) :
    start ≤ index ∧ index + part.length ≤ text.length := by
  unfold findFrom at found
  split at found
  · cases found
  · rename_i given
    obtain ⟨later, there, rfl⟩ := Option.map_eq_some_iff.mp found
    have long := findSub_length there
    rw [List.length_drop] at long
    omega

theorem findFrom_append {before after part : List α} (some' : part ≠ []) {index : Nat}
    (found : findSub part after = some index) :
    findFrom (before ++ after) part before.length = some (before.length + index) := by
  have inside : ¬ ((before ++ after).length < before.length ∨ part = []) := by
    rw [List.length_append]
    exact fun wrong => wrong.elim (by omega) some'
  unfold findFrom
  rw [if_neg inside, List.drop_left, found, Option.map_some, Nat.add_comm]

/-- Nothing is found where the first character does not stand. -/
theorem findSub_skip {first : α} {tail before : List α} (absent : first ∉ before) (after : List α) :
    findSub (first :: tail) (before ++ after) =
      (findSub (first :: tail) after).map fun index => index + before.length := by
  induction before with
  | nil => simp
  | cons next before ih =>
    have away : ¬ (first :: tail).isPrefixOf (next :: (before ++ after)) = true := by
      rw [List.isPrefixOf_iff_prefix, List.cons_prefix_cons]
      exact fun starts => absent (starts.1 ▸ List.mem_cons_self)
    show (if (first :: tail).isPrefixOf (next :: (before ++ after)) = true then some 0
      else (findSub (first :: tail) (before ++ after)).map fun index => index + 1) = _
    rw [if_neg away, ih fun member => absent (List.mem_cons_of_mem _ member), Option.map_map]
    rfl

/-- A text does not reach over a character it does not hold. -/
theorem findSub_behind {part before : List α} {stop : α} (absent : stop ∉ part) (some' : part ≠ [])
    (away : ¬ part <:+: before) (after : List α) :
    findSub part (before ++ stop :: after) =
      (findSub part after).map fun index => index + (before.length + 1) := by
  induction before with
  | nil =>
    cases part with
    | nil => exact absurd rfl some'
    | cons first tail =>
      have here : first ∉ [stop] :=
        fun member => absent (List.mem_singleton.mp member ▸ List.mem_cons_self)
      exact findSub_skip here after
  | cons next before ih =>
    have distinct : ¬ part.isPrefixOf (next :: (before ++ stop :: after)) = true := by
      rw [List.isPrefixOf_iff_prefix]
      intro starts
      have starts' : part <+: next :: before ++ stop :: after := starts
      by_cases short : part.length ≤ (next :: before).length
      · exact away (List.prefix_of_prefix_length_le starts' (List.prefix_append _ _) short).isInfix
      · have through : next :: before ++ [stop] <+: part := by
          have prefix' : next :: before ++ [stop] <+: next :: before ++ stop :: after :=
            ⟨after, by rw [List.append_assoc]; rfl⟩
          refine List.prefix_of_prefix_length_le prefix' starts' ?_
          rw [List.length_append, List.length_singleton]
          omega
        exact absent (through.subset (List.mem_append_right _ List.mem_cons_self))
    have further : ¬ part <:+: before := fun inside =>
      away (inside.trans (List.suffix_cons next before).isInfix)
    show (if part.isPrefixOf (next :: (before ++ stop :: after)) = true then some 0
      else (findSub part (before ++ stop :: after)).map fun index => index + 1) = _
    rw [if_neg distinct, ih further, Option.map_map]
    rfl

/-- **A text whose first character stands nowhere else in it** is found where it first stands. -/
theorem findSub_sentinel {first : α} {tail part : List α} (absent : first ∉ tail)
    (away : ¬ first :: tail <:+: part) (rest : List α) :
    findSub (first :: tail) (part ++ (first :: tail ++ rest)) = some part.length := by
  obtain ⟨index, found, early⟩ := @findSub_least α _ (first :: tail) rest part
  rw [found]
  refine congrArg some (le_antisymm early (Nat.le_of_not_lt fun before => ?_))
  have split := findSub_split found
  have taken : (part ++ (first :: tail ++ rest)).take index = part.take index := by
    rw [List.take_append_of_le_length early]
  rw [taken] at split
  obtain ⟨middle, isPart⟩ : ∃ middle, part = part.take index ++ middle :=
    ⟨part.drop index, (List.take_append_drop index part).symm⟩
  have some' : middle ≠ [] := by
    rintro rfl
    rw [List.append_nil] at isPart
    have := congrArg List.length isPart
    rw [List.length_take] at this
    omega
  -- What stands at the place is the middle of the part and then the text itself.
  have same : middle ++ (first :: tail ++ rest) = first :: tail ++
      (part ++ (first :: tail ++ rest)).drop (index + (first :: tail).length) := by
    have both : part.take index ++ (middle ++ (first :: tail ++ rest)) = part.take index ++
        (first :: tail ++ (part ++ (first :: tail ++ rest)).drop (index + (first :: tail).length)) := by
      rw [← List.append_assoc, ← isPart, ← split]
    exact List.append_cancel_left both
  have whole' : first :: tail <+: middle ++ (first :: tail ++ rest) := by
    rw [same]
    exact List.prefix_append _ _
  have middle' : middle <+: middle ++ (first :: tail ++ rest) := List.prefix_append _ _
  by_cases inside : (first :: tail).length ≤ middle.length
  · have starts : first :: tail <+: middle :=
      List.prefix_of_prefix_length_le whole' middle' inside
    obtain ⟨after, whole⟩ := starts
    exact away ⟨part.take index, after, by rw [List.append_assoc, whole, ← isPart]⟩
  · have starts : middle <+: first :: tail :=
      List.prefix_of_prefix_length_le middle' whole' (by omega)
    obtain ⟨after, whole⟩ := starts
    have next : first :: tail ++ rest = after ++
        (part ++ (first :: tail ++ rest)).drop (index + (first :: tail).length) := by
      have both : middle ++ (first :: tail ++ rest) = middle ++ (after ++
          (part ++ (first :: tail ++ rest)).drop (index + (first :: tail).length)) := by
        rw [same, ← List.append_assoc middle after, whole]
      exact List.append_cancel_left both
    cases after with
    | nil =>
      rw [List.append_nil] at whole
      rw [whole] at inside
      exact inside (le_refl _)
    | cons other after =>
      have first' : first = other := (List.cons.inj next).1
      refine absent ?_
      cases middle with
      | nil => exact absurd rfl some'
      | cons _ middle =>
        rw [List.cons_append] at whole
        rw [← (List.cons.inj whole).2, ← first']
        exact List.mem_append_right _ List.mem_cons_self

end CloudTwin.Lib
