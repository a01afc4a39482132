/-
**The JSON text of a map of texts**, as a serializer without blanks writes it.

* `escapeChar`, `quoted`, `objectText` — a character, a text in quotes, and a map.
* `escapeChar_append`, `quoted_append` — what is written can be told from what follows it.
* `objectText_injective` — different maps have different texts.
-/

import Mathlib.Data.List.Basic

namespace CloudTwin.Lib.JsonText

/-! ### Characters -/

def hexDigit (value : Nat) : Char :=
  if value < 10 then Char.ofNat (48 + value) else Char.ofNat (87 + value)

/-- The escape of a control character. -/
def controlEscape (code : Nat) : List Char :=
  if code = 8 then ['\\', 'b']
  else if code = 9 then ['\\', 't']
  else if code = 10 then ['\\', 'n']
  else if code = 12 then ['\\', 'f']
  else if code = 13 then ['\\', 'r']
  else ['\\', 'u', '0', '0', hexDigit (code / 16), hexDigit (code % 16)]

def escapeChar (char : Char) : List Char :=
  if char = '"' then ['\\', '"']
  else if char = '\\' then ['\\', '\\']
  else if char.toNat < 32 then controlEscape char.toNat
  else [char]

/-- The characters that are escaped. -/
def specials : List Char :=
  '"' :: '\\' :: (List.range 32).map Char.ofNat

theorem escapeChar_cases (char : Char) :
    char ∈ specials ∨ (escapeChar char = [char] ∧ char ≠ '"' ∧ char ≠ '\\') := by
  by_cases quote : char = '"'
  · exact Or.inl (by simp [specials, quote])
  · by_cases slash : char = '\\'
    · exact Or.inl (by simp [specials, slash])
    · by_cases control : char.toNat < 32
      · refine Or.inl (List.mem_cons_of_mem _ (List.mem_cons_of_mem _ (List.mem_map.mpr ?_)))
        exact ⟨char.toNat, List.mem_range.mpr control, Char.ofNat_toNat char⟩
      · exact Or.inr ⟨by simp [escapeChar, quote, slash, control], quote, slash⟩

/-- An escape is a backslash and something more. -/
theorem special_escape : ∀ char ∈ specials, (escapeChar char).head? = some '\\' ∧
    2 ≤ (escapeChar char).length := by
  have all : (specials.all fun char => decide ((escapeChar char).head? = some '\\' ∧
      2 ≤ (escapeChar char).length)) = true := by decide
  exact fun char member => of_decide_eq_true (List.all_eq_true.mp all char member)

theorem special_leads : ∀ char ∈ specials, ∀ other ∈ specials,
    (escapeChar char).isPrefixOf (escapeChar other) = true → char = other := by
  have all : (specials.all fun char => specials.all fun other =>
      decide ((escapeChar char).isPrefixOf (escapeChar other) = true → char = other)) = true := by
    decide
  intro char member other memberOther
  have row := List.all_eq_true.mp all char member
  exact of_decide_eq_true (List.all_eq_true.mp row other memberOther)

/-- No escape begins another. -/
theorem escapeChar_leads {char other : Char} (start : escapeChar char <+: escapeChar other) :
    char = other := by
  rcases escapeChar_cases char with special | ⟨plain, _, noSlash⟩
  · obtain ⟨_, long⟩ := special_escape char special
    rcases escapeChar_cases other with specialToo | ⟨plainToo, _, _⟩
    · exact special_leads char special other specialToo (List.isPrefixOf_iff_prefix.mpr start)
    · have short := start.length_le
      rw [plainToo, List.length_singleton] at short
      omega
  · rw [plain] at start
    rcases escapeChar_cases other with special | ⟨plainToo, _, _⟩
    · obtain ⟨rest, same⟩ := start
      have head := (special_escape other special).1
      rw [← same] at head
      exact absurd (Option.some.inj head) noSlash
    · rw [plainToo] at start
      obtain ⟨rest, same⟩ := start
      exact (List.cons.inj same).1

theorem escapeChar_append {char other : Char} {rest tail : List Char}
    (same : escapeChar char ++ rest = escapeChar other ++ tail) : char = other ∧ rest = tail := by
  have equal : char = other := by
    rcases List.prefix_or_prefix_of_prefix (List.prefix_append (escapeChar char) rest)
      (same ▸ List.prefix_append (escapeChar other) tail) with start | start
    · exact escapeChar_leads start
    · exact (escapeChar_leads start).symm
  subst equal
  exact ⟨rfl, List.append_cancel_left same⟩

theorem escapeChar_head (char : Char) (rest : List Char) :
    ∃ head tail, escapeChar char ++ rest = head :: tail ∧ head ≠ '"' := by
  rcases escapeChar_cases char with special | ⟨plain, noQuote, _⟩
  · have head := (special_escape char special).1
    cases escaped : escapeChar char with
    | nil => rw [escaped] at head; cases head
    | cons first others =>
      rw [escaped] at head
      rw [Option.some.inj head]
      exact ⟨_, _, rfl, by decide⟩
  · exact ⟨char, rest, by rw [plain]; rfl, noQuote⟩

/-! ### Texts -/

/-- A text in quotes. -/
def quoted (text : List Char) : List Char :=
  '"' :: (text.flatMap escapeChar ++ ['"'])

theorem escaped_append (text : List Char) : ∀ (other rest tail : List Char),
    text.flatMap escapeChar ++ '"' :: rest = other.flatMap escapeChar ++ '"' :: tail →
      text = other ∧ rest = tail := by
  induction text with
  | nil =>
    intro other rest tail same
    cases other with
    | nil => exact ⟨rfl, (List.cons.inj same).2⟩
    | cons char others =>
      rw [List.flatMap_cons, List.append_assoc] at same
      obtain ⟨head, more, begins, noQuote⟩ :=
        escapeChar_head char (others.flatMap escapeChar ++ '"' :: tail)
      rw [begins] at same
      exact absurd (List.cons.inj same).1.symm noQuote
  | cons char chars ih =>
    intro other rest tail same
    cases other with
    | nil =>
      rw [List.flatMap_cons, List.append_assoc] at same
      obtain ⟨head, more, begins, noQuote⟩ :=
        escapeChar_head char (chars.flatMap escapeChar ++ '"' :: rest)
      rw [begins] at same
      exact absurd (List.cons.inj same).1 noQuote
    | cons first others =>
      rw [List.flatMap_cons, List.flatMap_cons, List.append_assoc, List.append_assoc] at same
      obtain ⟨rfl, later⟩ := escapeChar_append same
      obtain ⟨rfl, last⟩ := ih others rest tail later
      exact ⟨rfl, last⟩

theorem quoted_append {text other rest tail : List Char}
    (same : quoted text ++ rest = quoted other ++ tail) : text = other ∧ rest = tail := by
  unfold quoted at same
  rw [List.cons_append, List.cons_append, List.append_assoc, List.append_assoc] at same
  exact escaped_append text other rest tail (List.cons.inj same).2

/-! ### Maps -/

def member (entry : List Char × List Char) : List Char :=
  quoted entry.1 ++ ':' :: quoted entry.2

theorem member_append {entry other : List Char × List Char} {rest tail : List Char}
    (same : member entry ++ rest = member other ++ tail) : entry = other ∧ rest = tail := by
  unfold member at same
  rw [List.append_assoc, List.append_assoc] at same
  obtain ⟨names, same⟩ := quoted_append same
  obtain ⟨values, same⟩ := quoted_append (List.cons.inj same).2
  exact ⟨Prod.ext names values, same⟩

/-- The members after the first, and the closing brace. -/
def moreMembers : List (List Char × List Char) → List Char
  | [] => ['}']
  | entry :: rest => ',' :: (member entry ++ moreMembers rest)

def objectText : List (List Char × List Char) → List Char
  | [] => ['{', '}']
  | entry :: rest => '{' :: (member entry ++ moreMembers rest)

theorem moreMembers_injective (entries : List (List Char × List Char)) :
    ∀ others, moreMembers entries = moreMembers others → entries = others := by
  induction entries with
  | nil =>
    intro others same
    cases others with
    | nil => rfl
    | cons other others => exact absurd (List.cons.inj same).1 (by decide)
  | cons entry entries ih =>
    intro others same
    cases others with
    | nil => exact absurd (List.cons.inj same).1 (by decide)
    | cons other others =>
      obtain ⟨rfl, later⟩ := member_append (List.cons.inj same).2
      rw [ih others later]

/-- **Different maps have different texts.** -/
theorem objectText_injective : Function.Injective objectText := by
  intro entries others same
  cases entries with
  | nil =>
    cases others with
    | nil => rfl
    | cons other others => exact absurd (List.cons.inj (List.cons.inj same).2).1 (by decide)
  | cons entry entries =>
    cases others with
    | nil => exact absurd (List.cons.inj (List.cons.inj same).2).1.symm (by decide)
    | cons other others =>
      obtain ⟨rfl, later⟩ := member_append (List.cons.inj same).2
      rw [moreMembers_injective entries others later]

example : objectText [("a".toList, "x\n".toList)] = "\x7b\"a\":\"x\\n\"\x7d".toList := by decide

end CloudTwin.Lib.JsonText
