/-
**The glob language.**

A pattern stands for the texts that replacing each star by some text gives. A matcher splits the
pattern at its stars and looks for the parts one after the other, each where it first occurs.

* `Obtained` — what a pattern stands for.
* `Joined`, `joined_split` — the parts of the pattern, with anything between them.
* `search`, `search_iff` — the search for the parts: taking each where it first occurs loses nothing.
* `search_joined` — the search after the first part, which begins the text.
-/

import CloudTwin.Lib.Substring
import CloudTwin.Lib.Text

namespace CloudTwin.Lib

open Text

variable {α : Type}

/-- The text is the pattern with some text in the place of each star. -/
inductive Obtained (star : α) : List α → List α → Prop
  | nil : Obtained star [] []
  | star (gap : List α) {pattern text : List α} :
      Obtained star pattern text → Obtained star (star :: pattern) (gap ++ text)
  | other {first : α} {pattern text : List α} (different : first ≠ star) :
      Obtained star pattern text → Obtained star (first :: pattern) (first :: text)

theorem obtained_nil {star : α} {text : List α} : Obtained star [] text ↔ text = [] := by
  constructor
  · intro obtained
    cases obtained
    rfl
  · rintro rfl
    exact .nil

theorem obtained_star {star : α} {pattern text : List α} :
    Obtained star (star :: pattern) text ↔
      ∃ gap rest, text = gap ++ rest ∧ Obtained star pattern rest := by
  constructor
  · intro obtained
    cases obtained with
    | star gap obtained => exact ⟨gap, _, rfl, obtained⟩
    | other different _ => exact absurd rfl different
  · rintro ⟨gap, rest, rfl, obtained⟩
    exact .star gap obtained

theorem obtained_other {star first : α} (different : first ≠ star) {pattern text : List α} :
    Obtained star (first :: pattern) text ↔
      ∃ rest, text = first :: rest ∧ Obtained star pattern rest := by
  constructor
  · intro obtained
    cases obtained with
    | star _ _ => exact absurd rfl different
    | other _ obtained => exact ⟨_, rfl, obtained⟩
  · rintro ⟨rest, rfl, obtained⟩
    exact .other different obtained

/-- The parts in their order, with anything between two of them. -/
def Joined : List (List α) → List α → Prop
  | [], _ => False
  | [only], text => text = only
  | first :: next :: parts, text =>
    ∃ gap rest, text = first ++ (gap ++ rest) ∧ Joined (next :: parts) rest

/-- The parts in their order, with anything between two of them and before the first. -/
def Within (parts : List (List α)) (text : List α) : Prop :=
  ∃ gap rest, text = gap ++ rest ∧ Joined parts rest

theorem joined_cons {first : List α} {parts : List (List α)} (more : parts ≠ []) {text : List α} :
    Joined (first :: parts) text ↔ ∃ rest, text = first ++ rest ∧ Within parts rest := by
  cases parts with
  | nil => exact absurd rfl more
  | cons next parts =>
    constructor
    · rintro ⟨gap, rest, rfl, joined⟩
      exact ⟨gap ++ rest, rfl, gap, rest, rfl, joined⟩
    · rintro ⟨_, rfl, gap, rest, rfl, joined⟩
      exact ⟨gap, rest, rfl, joined⟩

/-- What can be found after a text can be found in it. -/
theorem Within.prepend {parts : List (List α)} {text : List α} (before : List α)
    (within : Within parts text) : Within parts (before ++ text) := by
  obtain ⟨gap, rest, rfl, joined⟩ := within
  exact ⟨before ++ gap, rest, (List.append_assoc ..).symm, joined⟩

/-! ### The parts of a pattern -/

theorem splitGo_ne_nil (char : Char) (text : List Char) :
    ∀ current, splitGo char current text ≠ [] := by
  induction text with
  | nil => exact fun _ => List.cons_ne_nil _ _
  | cons next rest ih =>
    intro current
    unfold splitGo
    split
    · exact List.cons_ne_nil _ _
    · exact ih _

/-- The parts are those of what was read before and of the rest of the pattern. -/
theorem joined_splitGo (star : Char) (pattern : List Char) :
    ∀ current text, Joined (splitGo star current pattern) text ↔
      ∃ rest, text = current.reverse ++ rest ∧ Obtained star pattern rest := by
  induction pattern with
  | nil =>
    intro current text
    constructor
    · intro whole
      exact ⟨[], by rw [List.append_nil]; exact whole, .nil⟩
    · rintro ⟨rest, rfl, obtained⟩
      rw [obtained_nil.mp obtained, List.append_nil]
      rfl
  | cons next pattern ih =>
    intro current text
    unfold splitGo
    by_cases same : next = star
    · subst same
      rw [if_pos (beq_self_eq_true next), joined_cons (splitGo_ne_nil next pattern [])]
      refine exists_congr fun rest => and_congr_right fun _ => ?_
      rw [obtained_star]
      refine exists_congr fun gap => exists_congr fun after => and_congr_right fun _ => ?_
      rw [ih [] after]
      simp
    · rw [if_neg (by simpa using same), ih]
      constructor
      · rintro ⟨rest, rfl, obtained⟩
        refine ⟨next :: rest, by simp, (obtained_other same).mpr ⟨rest, rfl, obtained⟩⟩
      · rintro ⟨_, rfl, obtained⟩
        obtain ⟨rest, rfl, others⟩ := (obtained_other same).mp obtained
        exact ⟨rest, by simp, others⟩

/-- **The texts of a pattern are its parts with anything between them.** -/
theorem joined_split (star : Char) (pattern text : List Char) :
    Joined (splitGo star [] pattern) text ↔ Obtained star pattern text := by
  rw [joined_splitGo]
  simp

/-- A pattern of one part has no star in it. -/
theorem splitGo_single (star : Char) (pattern : List Char) :
    ∀ {current only : List Char}, splitGo star current pattern = [only] →
      only = current.reverse ++ pattern := by
  induction pattern with
  | nil =>
    intro current only single
    rw [List.append_nil, ← List.singleton_inj, ← single]
    rfl
  | cons next pattern ih =>
    intro current only single
    unfold splitGo at single
    split at single
    · exact absurd (List.cons.inj single).2 (splitGo_ne_nil star pattern [])
    · rw [ih single, List.reverse_cons, List.append_assoc, List.singleton_append]

/-! ### The search -/

section Search

variable [DecidableEq α]

theorem findSub_split {part : List α} :
    ∀ {text : List α} {index : Nat}, findSub part text = some index →
      text = text.take index ++ (part ++ text.drop (index + part.length)) := by
  intro text
  induction text with
  | nil =>
    intro index found
    unfold findSub at found
    split at found
    · rename_i starts
      cases found
      rw [List.prefix_nil.mp (List.isPrefixOf_iff_prefix.mp starts)]
      rfl
    · cases found
  | cons first rest ih =>
    intro index found
    unfold findSub at found
    split at found
    · rename_i starts
      cases found
      obtain ⟨after, whole⟩ := List.isPrefixOf_iff_prefix.mp starts
      rw [← whole, Nat.zero_add, List.take_zero, List.nil_append, List.drop_left]
    · obtain ⟨later, there, rfl⟩ := Option.map_eq_some_iff.mp found
      rw [List.take_succ_cons, Nat.add_right_comm, List.drop_succ_cons, List.cons_append, ← ih there]

/-- A text is found no later than any place where it occurs. -/
theorem findSub_least {part after : List α} (before : List α) :
    ∃ index, findSub part (before ++ (part ++ after)) = some index ∧ index ≤ before.length := by
  induction before with
  | nil => exact ⟨0, findSub_start (List.prefix_append part after), le_refl _⟩
  | cons first before ih =>
    obtain ⟨index, found, early⟩ := ih
    rw [List.cons_append]
    unfold findSub
    split
    · exact ⟨0, rfl, Nat.zero_le _⟩
    · rw [found]
      exact ⟨index + 1, rfl, Nat.succ_le_succ early⟩

/-- The parts are looked for one after the other; the last one ends the text. -/
def search : List (List α) → List α → Bool
  | [], _ => true
  | [last], rest => last.isSuffixOf rest
  | part :: next :: parts, rest =>
    match findSub part rest with
    | some index => search (next :: parts) (rest.drop (index + part.length))
    | none => false

/-- **The search decides**: a part may as well be taken where it first occurs. -/
theorem search_iff :
    ∀ {parts : List (List α)}, parts ≠ [] → ∀ {text : List α},
      search parts text = true ↔ Within parts text := by
  intro parts
  induction parts with
  | nil => exact fun some => absurd rfl some
  | cons part parts ih =>
    intro _ text
    cases parts with
    | nil =>
      show part.isSuffixOf text = true ↔ _
      rw [List.isSuffixOf_iff_suffix]
      constructor
      · rintro ⟨gap, rfl⟩
        exact ⟨gap, part, rfl, rfl⟩
      · rintro ⟨gap, rest, rfl, rfl⟩
        exact List.suffix_append gap rest
    | cons next parts =>
      have more : next :: parts ≠ [] := List.cons_ne_nil _ _
      unfold search
      constructor
      · intro found
        split at found
        · rename_i index there
          have after := (ih more).mp found
          exact ⟨text.take index, _, findSub_split there, (joined_cons more).mpr ⟨_, rfl, after⟩⟩
        · cases found
      · rintro ⟨gap, _, rfl, joined⟩
        obtain ⟨rest, rfl, within⟩ := (joined_cons more).mp joined
        -- The first occurrence is no later than this one, so that this rest is part of its rest.
        obtain ⟨index, found, early⟩ := @findSub_least α _ part rest gap
        rw [found]
        refine (ih more).mpr ?_
        have rest : (gap ++ (part ++ rest)).drop (index + part.length) =
            (gap ++ part).drop (index + part.length) ++ rest := by
          rw [← List.append_assoc, List.drop_append_of_le_length (by rw [List.length_append]; omega)]
        rw [rest]
        exact within.prepend _

/-- The first part begins the text, and the others are looked for in what follows. -/
theorem search_joined {first : List α} {parts : List (List α)} (more : parts ≠ []) {text : List α} :
    (first.isPrefixOf text && search parts (text.drop first.length)) = true ↔
      Joined (first :: parts) text := by
  rw [Bool.and_eq_true, List.isPrefixOf_iff_prefix, search_iff more, joined_cons more]
  constructor
  · rintro ⟨⟨rest, rfl⟩, within⟩
    rw [List.drop_left] at within
    exact ⟨rest, rfl, within⟩
  · rintro ⟨rest, rfl, within⟩
    rw [List.drop_left]
    exact ⟨List.prefix_append first rest, within⟩

end Search

end CloudTwin.Lib
