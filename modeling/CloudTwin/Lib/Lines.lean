/-
**Lines of a text.**

* `lines` — `str::lines`; `joined` — lines with their ends between them.
* `linesGo_joined` — joined lines are read back.
* `blankLine_joined` — the first empty line stands behind joined lines that are not empty.
-/

import CloudTwin.Lib.Delimiter

namespace CloudTwin.Lib.Lines

/-- `str::lines`: a line ends in `\n` or `\r\n`. -/
def linesGo : List Char → List Char → List (List Char)
  | current, [] => if current.isEmpty then [] else [current.reverse]
  | current, next :: rest =>
    if next = '\n' then
      (if current.head? = some '\r' then current.drop 1 else current).reverse :: linesGo [] rest
    else linesGo (next :: current) rest

def lines (text : String) : List String :=
  (linesGo [] text.toList).map String.ofList

theorem linesGo_append {line : List Char} (plain : '\n' ∉ line) (current rest : List Char) :
    linesGo current (line ++ rest) = linesGo (line.reverse ++ current) rest := by
  induction line generalizing current with
  | nil => rfl
  | cons next line ih =>
    have different : ¬ next = '\n' := fun same => plain (same ▸ List.mem_cons_self)
    rw [List.cons_append, linesGo, if_neg different,
      ih fun member => plain (List.mem_cons_of_mem _ member), List.reverse_cons, List.append_assoc]
    rfl

theorem linesGo_line {line : List Char} (plain : '\n' ∉ line) (rest : List Char) :
    linesGo [] (line ++ '\r' :: '\n' :: rest) = line :: linesGo [] rest := by
  rw [linesGo_append plain, List.append_nil, linesGo, if_neg (by decide), linesGo, if_pos rfl,
    List.head?_cons, if_pos rfl, List.drop_one, List.tail_cons, List.reverse_reverse]

theorem linesGo_last {line : List Char} (plain : '\n' ∉ line) (some' : line ≠ []) :
    linesGo [] line = [line] := by
  have whole := linesGo_append plain [] []
  have reversed : line.reverse.isEmpty = false := by
    rw [List.isEmpty_eq_false_iff]
    exact List.reverse_ne_nil_iff.mpr some'
  rw [List.append_nil, List.append_nil] at whole
  rw [whole, linesGo, reversed, if_neg Bool.false_ne_true, List.reverse_reverse]

/-- Lines as one text, without the end of the last one. -/
def joined : List Char → List (List Char) → List Char
  | line, [] => line
  | line, next :: rest => line ++ '\r' :: '\n' :: joined next rest

/-- **Joined lines are read back.** -/
theorem linesGo_joined (line : List Char) (rest : List (List Char))
    (good : ∀ given ∈ line :: rest, given ≠ [] ∧ '\n' ∉ given) :
    linesGo [] (joined line rest) = line :: rest := by
  induction rest generalizing line with
  | nil =>
    have this := good line List.mem_cons_self
    rw [joined, linesGo_last this.2 this.1]
  | cons next rest ih =>
    have this := good line List.mem_cons_self
    rw [joined, linesGo_line this.2, ih next fun given member => good given (List.mem_cons_of_mem _ member)]

/-! ### Empty lines -/

def crlf : List Char := ['\r', '\n']

theorem joined_append (line : List Char) (rest : List (List Char)) :
    (line :: rest).flatMap (fun line => line ++ crlf) = joined line rest ++ crlf := by
  induction rest generalizing line with
  | nil => rw [List.flatMap_singleton, joined]
  | cons next rest ih =>
    rw [List.flatMap_cons, ih, joined]
    simp only [crlf, List.append_assoc, List.cons_append, List.nil_append]

theorem joined_first (line : List Char) (rest : List (List Char)) :
    ∃ after, joined line rest = line ++ after := by
  cases rest with
  | nil => exact ⟨[], (List.append_nil _).symm⟩
  | cons next rest => exact ⟨_, rfl⟩

/-- An empty line does not begin in a line. -/
theorem findSub_line {line : List Char} (plain : '\n' ∉ line) (rest : List Char) :
    findSub (crlf ++ crlf) (line ++ '\r' :: '\n' :: rest) =
      (findSub (crlf ++ crlf) ('\r' :: '\n' :: rest)).map fun index => index + line.length := by
  induction line with
  | nil => simp
  | cons first line ih =>
    have away : ¬ (crlf ++ crlf).isPrefixOf (first :: (line ++ '\r' :: '\n' :: rest)) = true := by
      rw [List.isPrefixOf_iff_prefix]
      intro starts
      have second := (List.cons_prefix_cons.mp starts).2
      cases line with
      | nil => exact absurd (List.cons_prefix_cons.mp second).1 (by decide)
      | cons next line =>
        have feed : '\n' = next := (List.cons_prefix_cons.mp second).1
        exact plain (feed ▸ List.mem_cons_of_mem _ List.mem_cons_self)
    have step : findSub (crlf ++ crlf) (first :: (line ++ '\r' :: '\n' :: rest)) =
        (findSub (crlf ++ crlf) (line ++ '\r' :: '\n' :: rest)).map fun index => index + 1 := if_neg away
    rw [List.cons_append, step, ih fun member => plain (List.mem_cons_of_mem _ member),
      Option.map_map]
    rfl

/-- Nor at the end of a line that another one follows. -/
theorem findSub_end {rest : List Char} (more : ¬ crlf <+: rest) :
    findSub (crlf ++ crlf) ('\r' :: '\n' :: rest) =
      (findSub (crlf ++ crlf) rest).map fun index => index + 2 := by
  have away : ¬ (crlf ++ crlf).isPrefixOf ('\r' :: '\n' :: rest) = true := by
    rw [List.isPrefixOf_iff_prefix]
    exact fun starts => more (List.cons_prefix_cons.mp (List.cons_prefix_cons.mp starts).2).2
  have away' : ¬ (crlf ++ crlf).isPrefixOf ('\n' :: rest) = true := by
    rw [List.isPrefixOf_iff_prefix]
    exact fun starts => absurd (List.cons_prefix_cons.mp starts).1 (by decide)
  have step : findSub (crlf ++ crlf) ('\r' :: '\n' :: rest) =
      (findSub (crlf ++ crlf) ('\n' :: rest)).map fun index => index + 1 := if_neg away
  have step' : findSub (crlf ++ crlf) ('\n' :: rest) =
      (findSub (crlf ++ crlf) rest).map fun index => index + 1 := if_neg away'
  rw [step, step', Option.map_map]
  rfl

/-- A line of two characters or more, with no line end in it. -/
def Full (line : List Char) : Prop := 2 ≤ line.length ∧ '\n' ∉ line

theorem Full.starts {line : List Char} (full : Full line) :
    ∃ first second rest, line = first :: second :: rest ∧ first ≠ '\n' ∧ second ≠ '\n' := by
  obtain ⟨long, plain⟩ := full
  cases line with
  | nil => exact absurd long (by decide)
  | cons first line =>
    cases line with
    | nil => exact absurd long (Nat.lt_irrefl 1)
    | cons second rest =>
      refine ⟨first, second, rest, rfl, fun same => ?_, fun same => ?_⟩
      · exact plain (same ▸ List.mem_cons_self)
      · exact plain (same ▸ List.mem_cons_of_mem _ List.mem_cons_self)

/-- **The first empty line** stands behind the joined lines. -/
theorem blankLine_joined (line : List Char) (rest : List (List Char))
    (good : ∀ given ∈ line :: rest, Full given) (body : List Char) :
    findSub (crlf ++ crlf) (joined line rest ++ (crlf ++ (crlf ++ body))) =
      some (joined line rest).length := by
  induction rest generalizing line with
  | nil =>
    have this := good line List.mem_cons_self
    have found := findSub_line this.2 ('\r' :: '\n' :: body)
    have starts : findSub (crlf ++ crlf) ('\r' :: '\n' :: '\r' :: '\n' :: body) = some 0 :=
      findSub_start ⟨body, rfl⟩
    rw [starts, Option.map_some, Nat.zero_add] at found
    exact found
  | cons next rest ih =>
    have this := good line List.mem_cons_self
    have found := ih next fun given member => good given (List.mem_cons_of_mem _ member)
    have more : ¬ crlf <+: joined next rest ++ (crlf ++ (crlf ++ body)) := by
      obtain ⟨first, second, tail, rfl, _, different⟩ :=
        (good next (List.mem_cons_of_mem _ List.mem_cons_self)).starts
      obtain ⟨after, whole⟩ := joined_first (first :: second :: tail) rest
      rw [whole]
      exact fun starts =>
        different (List.cons_prefix_cons.mp (List.cons_prefix_cons.mp starts).2).1.symm
    have whole := findSub_line this.2 (joined next rest ++ (crlf ++ (crlf ++ body)))
    rw [findSub_end more, found, Option.map_some, Option.map_some] at whole
    have lengths : (joined line (next :: rest)).length =
        (joined next rest).length + 2 + line.length := by
      rw [joined, List.length_append, List.length_cons, List.length_cons]
      omega
    rw [lengths, ← whole, joined]
    simp only [List.append_assoc, List.cons_append]

/-- No line is empty to a reader that takes `\n` for a line end. -/
theorem feeds_joined (line : List Char) (rest : List (List Char))
    (good : ∀ given ∈ line :: rest, Full given) : findSub ['\n', '\n'] (joined line rest) = none := by
  induction rest generalizing line with
  | nil =>
    have skipped := @findSub_skip _ _ '\n' ['\n'] line (good line List.mem_cons_self).2 []
    rw [List.append_nil] at skipped
    exact skipped
  | cons next rest ih =>
    have this := good line List.mem_cons_self
    have none := ih next fun given member => good given (List.mem_cons_of_mem _ member)
    have absent : '\n' ∉ line ++ ['\r'] := by
      rw [List.mem_append, List.mem_singleton]
      exact fun wrong => wrong.elim this.2 (by decide)
    have away : ¬ ['\n', '\n'].isPrefixOf ('\n' :: joined next rest) = true := by
      rw [List.isPrefixOf_iff_prefix]
      obtain ⟨first, second, tail, rfl, different, _⟩ :=
        (good next (List.mem_cons_of_mem _ List.mem_cons_self)).starts
      obtain ⟨after, whole⟩ := joined_first (first :: second :: tail) rest
      rw [whole]
      exact fun starts =>
        different (List.cons_prefix_cons.mp (List.cons_prefix_cons.mp starts).2).1.symm
    have step : findSub ['\n', '\n'] ('\n' :: joined next rest) =
        (findSub ['\n', '\n'] (joined next rest)).map fun index => index + 1 := if_neg away
    have skipped := @findSub_skip _ _ '\n' ['\n'] _ absent ('\n' :: joined next rest)
    rw [step, none, List.append_assoc] at skipped
    exact skipped

end CloudTwin.Lib.Lines
