/-
**The filters of ListUsers** (`parse_filter`, `Filter::matches`, `aws/cognito/service.rs`).

A filter is an attribute, an operator and a value in quotes. The operator is looked for in the whole
text, `^=` before `=`; all quotes around the attribute are trimmed off, and a backslash before a quote
in the value is taken away.

* `parseFilter`, `Filter.matches` — the code.
* `Reads` — a text as the code reads it; `parseFilter_iff` — it is accepted just as that.
* `Written` — a filter as it is described; `Strict` — the texts for which there is no difference.
* `filters_read` — the described filters are accepted and all else rejected just for those texts.
* `caret_in_value` — values and texts that are read otherwise.
-/

import CloudTwin.Cognito.Models
import CloudTwin.Lib.Words

namespace CloudTwin.Cognito

open Lib Lib.Text Lib.Words

/-! ### The code -/

structure Filter where
  attr : String
  isPrefix : Bool
  value : String
deriving DecidableEq

/-- `FILTER_ATTRS`. -/
def filterAttrs : List String :=
  ["username", "email", "phone_number", "name", "given_name", "family_name", "preferred_username",
    "cognito:user_status", "status", "sub"]

/-- `replace("\\\"", "\"")`. -/
def unescape : List Char → List Char
  | '\\' :: '"' :: rest => '"' :: unescape rest
  | char :: rest => char :: unescape rest
  | [] => []

def caretText : List Char := "^=".toList

/-- The text at the operator: what stands before it and after it, and whether it is `^=`. -/
def splitOperator (f : List Char) : Option (List Char × List Char × Bool) :=
  match findSub caretText f with
  | some i => some (f.take i, f.drop (i + 2), true)
  | none =>
    match findSub ['='] f with
    | some i => some (f.take i, f.drop (i + 1), false)
    | none => none

/-- `parse_filter`; no filter is made of a blank text. -/
def parseFilter (text : String) : CResult (Option Filter) :=
  let f := trimChars text.toList
  let invalid := err "InvalidParameterException"
    ("Error while parsing filter: " ++ String.ofList f)
  if f.isEmpty then .ok none
  else match splitOperator f with
    | none => .error invalid
    | some (lhs, rhs, isPrefix) =>
      let attr := String.ofList (trimBy (· == '"') (trimChars lhs))
      let rhs := trimChars rhs
      if rhs.length < 2 ∨ rhs.head? ≠ some '"' ∨ rhs.getLast? ≠ some '"' then .error invalid
      else if !(filterAttrs.contains attr) then
        .error (err "InvalidParameterException" ("Invalid search attribute: " ++ attr))
      else .ok (some { attr, isPrefix, value := String.ofList (unescape (rhs.drop 1).dropLast) })

/-- The text that a filter compares. -/
def User.filtered (user : User) (attr : String) : Option String :=
  if attr = "username" then some user.username
  else if attr = "status" then some (if user.enabled then "Enabled" else "Disabled")
  else if attr = "cognito:user_status" then some user.status.text
  else user.attr attr

-- `str::to_lowercase`.
variable (toLowercase : String → String)

/-- `Filter::matches`. -/
def Filter.matches (filter : Filter) (user : User) : Bool :=
  match user.filtered filter.attr with
  | none => false
  | some actual =>
    let caseSensitive := filter.attr == "sub" || filter.attr == "status"
    let a := if caseSensitive then actual else toLowercase actual
    let v := if caseSensitive then filter.value else toLowercase filter.value
    if filter.isPrefix then startsWith a v else a == v

/-! ### Filters as they are read -/

/-- Each quote with a backslash before it. -/
def escape (value : List Char) : List Char :=
  value.flatMap fun char => if char = '"' then ['\\', '"'] else [char]

def operatorText (isPrefix : Bool) : List Char :=
  if isPrefix then caretText else ['=']

/-- A text made of its parts: the attribute with quotes around it, the operator, and a body in
quotes, with blanks around the parts. -/
structure Parts where
  attr : String
  isPrefix : Bool
  body : List Char
  opening : List Char
  closing : List Char
  before : List Char
  behindAttr : List Char
  behindOp : List Char
  after : List Char
  known : attr ∈ filterAttrs
  quotes : (∀ char ∈ opening, char = '"') ∧ ∀ char ∈ closing, char = '"'
  blanks : Blank before ∧ Blank behindAttr ∧ Blank behindOp ∧ Blank after

/-- The attribute and its quotes. -/
def Parts.name (parts : Parts) : List Char :=
  parts.opening ++ (parts.attr.toList ++ parts.closing)

/-- The body in its quotes. -/
def Parts.quoted (parts : Parts) : List Char :=
  '"' :: (parts.body ++ ['"'])

/-- The parts without the blanks around them. -/
def Parts.middle (parts : Parts) : List Char :=
  parts.name ++ (parts.behindAttr ++ (operatorText parts.isPrefix ++ (parts.behindOp ++ parts.quoted)))

def Parts.text (parts : Parts) : List Char :=
  parts.before ++ (parts.middle ++ parts.after)

/-- **How the code reads a text**: an operator `=` is found only if there is no `^=` anywhere. -/
def Reads (text : String) (filter : Filter) : Prop :=
  ∃ parts : Parts, text.toList = parts.text ∧ filter = ⟨parts.attr, parts.isPrefix,
      String.ofList (unescape parts.body)⟩ ∧
    (parts.isPrefix = false → ¬ caretText <:+: parts.middle)

/-- **A filter as it is described**: the attribute bare or in one pair of quotes, and each quote of the
value with a backslash before it. -/
def Written (text : String) (filter : Filter) : Prop :=
  ∃ parts : Parts, text.toList = parts.text ∧ filter.attr = parts.attr ∧
    filter.isPrefix = parts.isPrefix ∧ parts.body = escape filter.value.toList ∧
    (parts.opening = [] ∧ parts.closing = [] ∨ parts.opening = ['"'] ∧ parts.closing = ['"'])

theorem unescape_cons {char : Char} {rest : List Char}
    (plain : ¬ (char = '\\' ∧ rest.head? = some '"')) :
    unescape (char :: rest) = char :: unescape rest := by
  rw [unescape.eq_2]
  rintro rest' rfl rfl
  exact plain ⟨rfl, rfl⟩

theorem escape_head (value : List Char) : (escape value).head? ≠ some '"' := by
  cases value with
  | nil => nofun
  | cons char rest =>
    unfold escape
    rw [List.flatMap_cons]
    split
    · exact fun wrong => absurd (Option.some.inj wrong) (by decide)
    · rename_i other
      exact fun same => other (Option.some.inj same)

/-- An escaped value is read back. -/
theorem unescape_escape (value : List Char) : unescape (escape value) = value := by
  induction value with
  | nil => rfl
  | cons char rest ih =>
    have whole : escape (char :: rest) =
        (if char = '"' then ['\\', '"'] else [char]) ++ escape rest := List.flatMap_cons
    rw [whole]
    split
    · rename_i quote
      show '"' :: unescape (escape rest) = _
      rw [ih, quote]
    · rename_i other
      show unescape (char :: escape rest) = _
      rw [unescape_cons fun both => escape_head rest both.2, ih]

/-- Each quote has a backslash before it. -/
def Escaped (body : List Char) : Prop :=
  ∀ before after, body = before ++ '"' :: after → before.getLast? = some '\\'

theorem Escaped.behind {front body : List Char} (escaped : Escaped (front ++ body))
    (apart : ¬ (front.getLast? = some '\\' ∧ body.head? = some '"')) : Escaped body := by
  intro before after whole
  have last := escaped (front ++ before) after (by rw [whole, List.append_assoc])
  cases before with
  | nil =>
    rw [List.append_nil] at last
    exact absurd ⟨last, by rw [whole]; rfl⟩ apart
  | cons char rest => rwa [List.getLast?_append_of_ne_nil _ (List.cons_ne_nil _ _)] at last

theorem escape_escaped (value : List Char) : Escaped (escape value) := by
  induction value with
  | nil =>
    intro before after whole
    cases before <;> cases whole
  | cons char rest ih =>
    intro before after whole
    have parts : escape (char :: rest) =
        (if char = '"' then ['\\', '"'] else [char]) ++ escape rest := List.flatMap_cons
    rw [parts] at whole
    split at whole
    · match before, whole with
      | [_], whole =>
        cases (List.cons.inj whole).1
        rfl
      | _ :: _ :: before, whole =>
        have last := ih before after (List.cons.inj (List.cons.inj whole).2).2
        cases before with
        | nil => cases last
        | cons => exact last
    · rename_i other
      match before, whole with
      | [], whole => exact absurd (List.cons.inj whole).1 other
      | _ :: before, whole =>
        have last := ih before after (List.cons.inj whole).2
        cases before with
        | nil => cases last
        | cons => exact last

/-- **The escaped texts** are those of which each quote has a backslash before it. -/
theorem escape_unescape {body : List Char} (escaped : Escaped body) :
    escape (unescape body) = body := by
  induction body using unescape.induct with
  | case1 rest ih =>
    have rest' := @Escaped.behind ['\\', '"'] rest escaped fun both => absurd both.1 (by decide)
    show '\\' :: '"' :: escape (unescape rest) = _
    rw [ih rest']
  | case2 char rest apart ih =>
    have plain : ¬ (char = '\\' ∧ rest.head? = some '"') := by
      rintro ⟨rfl, quote⟩
      obtain ⟨rest, rfl⟩ := List.head?_eq_some_iff.mp quote
      exact apart rest rfl rfl
    have noQuote : char ≠ '"' := by
      rintro rfl
      cases escaped [] rest rfl
    have rest' := @Escaped.behind [char] rest escaped fun both =>
      plain ⟨Option.some.inj both.1, both.2⟩
    rw [unescape_cons plain]
    show (if char = '"' then ['\\', '"'] else [char]) ++ escape (unescape rest) = _
    rw [if_neg noQuote, ih rest']
    rfl
  | case3 => rfl

/-! ### Reading -/

theorem filterAttrs_plain : ∀ attr ∈ filterAttrs, attr.toList ≠ [] ∧ ∀ char ∈ attr.toList,
    isWhitespace char = false ∧ char ≠ '"' ∧ char ≠ '^' ∧ char ≠ '=' := by
  have plain : ∀ attr ∈ filterAttrs, attr.toList ≠ [] ∧ (attr.toList.all fun char =>
      !isWhitespace char && char != '"' && char != '^' && char != '=') = true := by
    intro attr member
    simp only [filterAttrs, List.mem_cons, List.not_mem_nil, or_false] at member
    rcases member with rfl | rfl | rfl | rfl | rfl | rfl | rfl | rfl | rfl | rfl <;> decide
  intro attr member
  refine ⟨(plain attr member).1, fun char inside => ?_⟩
  have checked := List.all_eq_true.mp (plain attr member).2 char inside
  simpa [and_assoc] using checked

namespace Parts

variable (parts : Parts)

theorem attr_solid (p : Char → Bool)
    (plain : ∀ char ∈ parts.attr.toList, p char = false) : SolidBy p parts.attr.toList :=
  ⟨fun char here => plain char (List.mem_of_head? here),
    fun char here => plain char (List.mem_of_getLast? here)⟩

/-- No operator stands in the attribute, its quotes and the blanks behind it. -/
theorem mem_front {char : Char} (member : char ∈ parts.name ++ parts.behindAttr) :
    char ≠ '^' ∧ char ≠ '=' := by
  have blank : isWhitespace char = true → char ≠ '^' ∧ char ≠ '=' := by
    intro white
    constructor <;> rintro rfl <;> exact absurd white (by decide)
  have quote : char = '"' → char ≠ '^' ∧ char ≠ '=' := by
    rintro rfl
    decide
  simp only [name, List.mem_append] at member
  rcases member with (opening | attr | closing) | behind
  · exact quote (parts.quotes.1 char opening)
  · exact ((filterAttrs_plain parts.attr parts.known).2 char attr).2.2
  · exact quote (parts.quotes.2 char closing)
  · exact blank (parts.blanks.2.1 char behind)

theorem mem_name {char : Char} (member : char ∈ parts.name) : isWhitespace char = false := by
  have quote : char = '"' → isWhitespace char = false := by
    rintro rfl
    decide
  simp only [name, List.mem_append] at member
  rcases member with opening | attr | closing
  · exact quote (parts.quotes.1 char opening)
  · exact ((filterAttrs_plain parts.attr parts.known).2 char attr).1
  · exact quote (parts.quotes.2 char closing)

theorem name_ne_nil : parts.name ≠ [] := by
  have some' := (filterAttrs_plain parts.attr parts.known).1
  unfold name
  exact List.append_ne_nil_of_right_ne_nil _ (List.append_ne_nil_of_left_ne_nil some' _)

theorem name_solid : Solid parts.name :=
  ⟨fun _ here => parts.mem_name (List.mem_of_head? here),
    fun _ here => parts.mem_name (List.mem_of_getLast? here)⟩

theorem quoted_last : parts.quoted.getLast? = some '"' := by
  rw [quoted, ← List.cons_append, List.getLast?_concat]

theorem quoted_solid : Solid parts.quoted := by
  constructor
  · intro char here
    cases Option.some.inj here
    decide
  · intro char here
    rw [parts.quoted_last] at here
    cases Option.some.inj here
    decide

theorem middle_solid : Solid parts.middle := by
  constructor
  · intro char here
    rw [middle, List.head?_append_of_ne_nil _ parts.name_ne_nil] at here
    exact parts.mem_name (List.mem_of_head? here)
  · intro char here
    have some' : parts.quoted ≠ [] := List.cons_ne_nil _ _
    simp only [middle, ← List.append_assoc] at here
    rw [List.getLast?_append_of_ne_nil _ some'] at here
    exact parts.quoted_solid.2 char here

theorem trim_text : trimChars parts.text = parts.middle :=
  trimBy_solid parts.blanks.1 parts.blanks.2.2.2 parts.middle_solid

theorem trim_name : trimChars (parts.name ++ parts.behindAttr) = parts.name :=
  @trimBy_solid isWhitespace [] parts.name parts.behindAttr
    (fun _ wrong => absurd wrong List.not_mem_nil) parts.blanks.2.1 parts.name_solid

theorem trim_front :
    trimBy (· == '"') (trimChars (parts.name ++ parts.behindAttr)) = parts.attr.toList := by
  rw [parts.trim_name]
  refine trimBy_solid (fun char member => ?_) (fun char member => ?_) (parts.attr_solid _ ?_)
  · rw [parts.quotes.1 char member]
    decide
  · rw [parts.quotes.2 char member]
    decide
  · intro char member
    exact beq_false_of_ne ((filterAttrs_plain parts.attr parts.known).2 char member).2.1

theorem trim_back : trimChars (parts.behindOp ++ parts.quoted) = parts.quoted := by
  have whole := @trimBy_solid isWhitespace parts.behindOp parts.quoted [] parts.blanks.2.2.1
    (fun _ wrong => absurd wrong List.not_mem_nil) parts.quoted_solid
  rw [List.append_nil] at whole
  exact whole

/-- **Where the operator is found.** -/
theorem splitOperator_middle
    (uncaret : parts.isPrefix = false → ¬ caretText <:+: parts.middle) :
    splitOperator parts.middle = some (parts.name ++ parts.behindAttr,
      parts.behindOp ++ parts.quoted, parts.isPrefix) := by
  have noCaret : '^' ∉ parts.name ++ parts.behindAttr := fun member => (parts.mem_front member).1 rfl
  have noEqual : '=' ∉ parts.name ++ parts.behindAttr := fun member => (parts.mem_front member).2 rfl
  have whole : parts.middle = (parts.name ++ parts.behindAttr) ++
      (operatorText parts.isPrefix ++ (parts.behindOp ++ parts.quoted)) := by
    rw [middle, List.append_assoc]
  generalize parts.name ++ parts.behindAttr = front at *
  generalize parts.behindOp ++ parts.quoted = back at *
  unfold splitOperator
  cases given : parts.isPrefix with
  | true =>
    rw [given] at whole
    have found : findSub caretText parts.middle = some front.length := by
      rw [whole]
      have skipped := @findSub_skip _ _ '^' ['='] front noCaret (caretText ++ back)
      have start : findSub ['^', '='] (caretText ++ back) = some 0 :=
        findSub_start (List.prefix_append _ _)
      rw [start, Option.map_some, Nat.zero_add] at skipped
      exact skipped
    rw [found, whole]
    dsimp only
    rw [List.take_left]
    refine congrArg some (Prod.ext rfl (Prod.ext ?_ rfl))
    show (front ++ (caretText ++ back)).drop (front.length + 2) = back
    rw [← List.append_assoc]
    refine List.drop_left' ?_
    rw [List.length_append]
    rfl
  | false =>
    have none := findSub_none.mpr (uncaret given)
    rw [given] at whole
    have found : findSub ['='] parts.middle = some front.length := by
      rw [whole]
      have skipped := @findSub_skip _ _ '=' [] front noEqual (['='] ++ back)
      have start : findSub ['='] (['='] ++ back) = some 0 :=
        findSub_start (List.prefix_append _ _)
      rw [start, Option.map_some, Nat.zero_add] at skipped
      exact skipped
    rw [none, found, whole]
    dsimp only
    rw [List.take_left]
    refine congrArg some (Prod.ext rfl (Prod.ext ?_ rfl))
    show (front ++ (['='] ++ back)).drop (front.length + 1) = back
    rw [← List.append_assoc]
    refine List.drop_left' ?_
    rw [List.length_append]
    rfl

/-- The quotes before the attribute. -/
theorem opening_length : (parts.name.takeWhile (· == '"')).length = parts.opening.length := by
  have some' := (filterAttrs_plain parts.attr parts.known).1
  obtain ⟨first, rest, attr⟩ := List.exists_cons_of_ne_nil some'
  have plain := ((filterAttrs_plain parts.attr parts.known).2 first (attr ▸ List.mem_cons_self)).2.1
  rw [name, attr, List.takeWhile_append_of_pos fun char member => by
    rw [parts.quotes.1 char member]
    decide]
  rw [List.cons_append, List.takeWhile_cons_of_neg (by simpa using plain), List.append_nil]

/-- **A text has one way to be made of parts**, if the operator is found. -/
theorem unique {other : Parts} (whole : parts.text = other.text)
    (op : parts.isPrefix = other.isPrefix)
    (uncaret : parts.isPrefix = false → ¬ caretText <:+: parts.middle) :
    parts.opening = other.opening ∧ parts.closing = other.closing ∧ parts.body = other.body := by
  have middle : parts.middle = other.middle := by
    rw [← parts.trim_text, whole, other.trim_text]
  have found := parts.splitOperator_middle uncaret
  have foundOther := other.splitOperator_middle (op ▸ middle ▸ uncaret)
  rw [middle, foundOther] at found
  obtain ⟨front, back⟩ := Prod.mk.inj (Option.some.inj found)
  have names : other.name = parts.name := by
    rw [← other.trim_name, front, parts.trim_name]
  have quoted : other.quoted = parts.quoted := by
    rw [← other.trim_back, (Prod.mk.inj back).1, parts.trim_back]
  have attrs : other.attr.toList = parts.attr.toList := by
    rw [← other.trim_front, front, parts.trim_front]
  have opening : other.opening.length = parts.opening.length := by
    rw [← other.opening_length, names, parts.opening_length]
  rw [name, name, attrs] at names
  obtain ⟨first, rest⟩ := List.append_inj names opening
  refine ⟨first.symm, (List.append_cancel_left rest).symm, ?_⟩
  exact (List.append_cancel_right (List.cons.inj quoted).2).symm

end Parts

theorem parseFilter_text (text : String) (parts : Parts) (whole : text.toList = parts.text)
    (uncaret : parts.isPrefix = false → ¬ caretText <:+: parts.middle) :
    parseFilter text = .ok (some ⟨parts.attr, parts.isPrefix,
      String.ofList (unescape parts.body)⟩) := by
  have some' : parts.middle.isEmpty = false := by
    rw [List.isEmpty_eq_false_iff]
    exact List.append_ne_nil_of_left_ne_nil parts.name_ne_nil _
  have known : filterAttrs.contains parts.attr = true := List.contains_iff_mem.mpr parts.known
  have long : ¬ parts.quoted.length < 2 := by
    rw [Parts.quoted, List.length_cons, List.length_append, List.length_singleton]
    omega
  have body : (parts.quoted.drop 1).dropLast = parts.body := by
    show (parts.body ++ ['"']).dropLast = parts.body
    rw [List.dropLast_concat]
  unfold parseFilter
  rw [whole, parts.trim_text]
  dsimp only
  rw [if_neg (by rw [some']; exact Bool.false_ne_true),
    parts.splitOperator_middle uncaret]
  dsimp only
  rw [parts.trim_back, if_neg, parts.trim_front, String.ofList_toList, known, body]
  · rfl
  · rintro (short | first | last)
    · exact long short
    · exact first rfl
    · exact last parts.quoted_last

/-- The text at its operator. -/
theorem splitOperator_some {f lhs rhs : List Char} {isPrefix : Bool}
    (split : splitOperator f = some (lhs, rhs, isPrefix)) :
    f = lhs ++ (operatorText isPrefix ++ rhs) ∧ (isPrefix = false → ¬ caretText <:+: f) := by
  unfold splitOperator at split
  cases caret : findSub caretText f with
  | some i =>
    rw [caret] at split
    cases split
    exact ⟨findSub_split caret, nofun⟩
  | none =>
    rw [caret] at split
    cases equal : findSub ['='] f with
    | none =>
      rw [equal] at split
      cases split
    | some i =>
      rw [equal] at split
      cases split
      exact ⟨findSub_split equal, fun _ => findSub_none.mp caret⟩

/-- A text in quotes. -/
theorem quoted_of_ends {rhs : List Char} (long : ¬ rhs.length < 2) (first : rhs.head? = some '"')
    (last : rhs.getLast? = some '"') : rhs = '"' :: ((rhs.drop 1).dropLast ++ ['"']) := by
  cases rhs with
  | nil => cases first
  | cons char rest =>
    cases Option.some.inj first
    rcases rest.eq_nil_or_concat with rfl | ⟨body, other, rfl⟩
    · exact absurd (by decide) long
    · rw [List.concat_eq_append] at last ⊢
      rw [← List.cons_append, List.getLast?_concat] at last
      cases Option.some.inj last
      rw [List.drop_one, List.tail_cons, List.dropLast_concat]

/-- **A text is accepted just as it reads.** -/
theorem parseFilter_iff (text : String) (filter : Filter) :
    parseFilter text = .ok (some filter) ↔ Reads text filter := by
  constructor
  · intro parsed
    obtain ⟨before, after, one, four, whole⟩ := @trimBy_spec isWhitespace text.toList
    have trimmed : trimBy isWhitespace text.toList = trimChars text.toList := rfl
    unfold parseFilter at parsed
    dsimp only at parsed
    split at parsed
    · cases parsed
    · split at parsed
      · cases parsed
      · rename_i lhs rhs isPrefix split
        obtain ⟨isText, uncaret⟩ := splitOperator_some split
        split at parsed
        · cases parsed
        · rename_i ends
          split at parsed
          · cases parsed
          · rename_i known
            cases parsed
            simp only [not_or, ne_eq, not_not] at ends
            obtain ⟨long, first, last⟩ := ends
            obtain ⟨front, behindAttr, zero, two, isLhs⟩ := @trimBy_spec isWhitespace lhs
            obtain ⟨opening, closing, quote, quote', isName⟩ := @trimBy_spec (· == '"') (trimChars lhs)
            obtain ⟨behindOp, back, three, five, isRhs⟩ := @trimBy_spec isWhitespace rhs
            have isQuoted := quoted_of_ends long first last
            have isLhs : lhs = front ++ (trimChars lhs ++ behindAttr) := isLhs
            have isRhs : rhs = behindOp ++ (trimChars rhs ++ back) := isRhs
            have middle : front ++ (opening ++ (trimBy (· == '"') (trimChars lhs) ++ closing) ++
                (behindAttr ++ (operatorText isPrefix ++ (behindOp ++
                  '"' :: (((trimChars rhs).drop 1).dropLast ++ ['"']))))) ++ back =
                trimChars text.toList := by
              rw [← isName, ← isQuoted, isText]
              conv_rhs => rw [isLhs, isRhs]
              simp only [List.append_assoc]
            refine ⟨{
                attr := String.ofList (trimBy (· == '"') (trimChars lhs)), isPrefix
                body := ((trimChars rhs).drop 1).dropLast, opening, closing
                before := before ++ front, behindAttr, behindOp, after := back ++ after
                known := ?_
                quotes := ⟨fun char member => by simpa using quote char member,
                  fun char member => by simpa using quote' char member⟩
                blanks := ⟨Blank.append one zero, two, three, Blank.append five four⟩ }, ?_, rfl, ?_⟩
            · exact List.contains_iff_mem.mp (by simpa using known)
            · refine whole.trans ?_
              rw [trimmed, ← middle]
              simp only [Parts.text, Parts.middle, Parts.name, Parts.quoted, String.toList_ofList,
                List.append_assoc, List.cons_append]
            · intro plain within
              refine uncaret plain (within.trans ?_)
              rw [← middle]
              exact ⟨front, back, by
                simp only [Parts.middle, Parts.name, Parts.quoted, String.toList_ofList]⟩
  · rintro ⟨parts, whole, rfl, uncaret⟩
    exact parseFilter_text text parts whole uncaret

/-- Only a blank text is no filter. -/
theorem parseFilter_none (text : String) : parseFilter text = .ok none ↔ Blank text.toList := by
  have empty : (trimChars text.toList).isEmpty = true ↔ Blank text.toList := by
    rw [List.isEmpty_iff]
    constructor
    · intro nothing
      obtain ⟨before, after, one, two, whole⟩ := @trimBy_spec isWhitespace text.toList
      have nothing : trimBy isWhitespace text.toList = [] := nothing
      rw [nothing, List.nil_append] at whole
      rw [whole]
      exact Blank.append one two
    · intro blank
      have whole := @trimBy_solid isWhitespace text.toList [] [] blank
        (fun _ wrong => absurd wrong List.not_mem_nil) ⟨nofun, nofun⟩
      rw [List.append_nil, List.append_nil] at whole
      exact whole
  rw [← empty]
  unfold parseFilter
  dsimp only
  by_cases nothing : (trimChars text.toList).isEmpty = true
  · rw [if_pos nothing]
    exact iff_of_true rfl nothing
  · rw [if_neg nothing]
    refine iff_of_false (fun wrong => ?_) nothing
    split at wrong
    · cases wrong
    · split at wrong
      · cases wrong
      · split at wrong <;> cases wrong

/-- Every rejection is an `InvalidParameterException`. -/
theorem parseFilter_error {text : String} {error : CogError}
    (parsed : parseFilter text = .error error) : error.code = "InvalidParameterException" := by
  unfold parseFilter at parsed
  dsimp only at parsed
  split at parsed
  · cases parsed
  · split at parsed
    · cases parsed
      rfl
    · split at parsed
      · cases parsed
        rfl
      · split at parsed
        · cases parsed
          rfl
        · cases parsed

/-- A filter as it is described is read as it is meant, if its `=` is found. -/
theorem Written.reads {text : String} {filter : Filter} (written : Written text filter) :
    ∃ parts : Parts, text.toList = parts.text ∧ filter = ⟨parts.attr, parts.isPrefix,
      String.ofList (unescape parts.body)⟩ ∧
      (¬ (filter.isPrefix = false ∧ caretText <:+: trimChars text.toList) → Reads text filter) := by
  obtain ⟨parts, whole, attr, op, body, _⟩ := written
  have same : filter = ⟨parts.attr, parts.isPrefix, String.ofList (unescape parts.body)⟩ := by
    rw [body, unescape_escape, String.ofList_toList, ← attr, ← op]
  refine ⟨parts, whole, same, fun found => ⟨parts, whole, same, fun plain within => found ⟨?_, ?_⟩⟩⟩
  · rw [op, plain]
  · rw [whole, parts.trim_text]
    exact within

/-- One pair of quotes around the attribute or none, and none in the value but behind a backslash. -/
structure Parts.Tidy (parts : Parts) : Prop where
  pair : parts.opening = [] ∧ parts.closing = [] ∨ parts.opening = ['"'] ∧ parts.closing = ['"']
  escaped : Escaped parts.body

/-- **A text for which there is no difference**: it is not blank; no filter with `=` that it is as
described has `^=` in it; and if it is made of the parts of a filter, whose operator is found, then
their quotes are tidy. -/
structure Strict (text : String) : Prop where
  some_text : ¬ Blank text.toList
  operator : ∀ filter, Written text filter → filter.isPrefix = false →
    ¬ caretText <:+: trimChars text.toList
  quotes : ∀ parts : Parts, text.toList = parts.text →
    (parts.isPrefix = false → ¬ caretText <:+: parts.middle) → parts.Tidy

/-- **What the filters are described to do**: each is accepted as it is written, and all else is
rejected. -/
def AsDescribed (text : String) : Prop :=
  (∀ filter, Written text filter → parseFilter text = .ok (some filter)) ∧
    ((¬ ∃ filter, Written text filter) → ∃ error, parseFilter text = .error error ∧
      error.code = "InvalidParameterException")

theorem asDescribed_iff (text : String) : AsDescribed text ↔ Strict text := by
  constructor
  · rintro ⟨accepts, rejects⟩
    refine ⟨fun blank => ?_, fun filter written plain within => ?_, fun parts whole uncaret => ?_⟩
    · have none := (parseFilter_none text).mpr blank
      by_cases some' : ∃ filter, Written text filter
      · obtain ⟨filter, written⟩ := some'
        have accepted := accepts filter written
        rw [none] at accepted
        cases accepted
      · obtain ⟨error, rejected, _⟩ := rejects some'
        rw [none] at rejected
        cases rejected
    · obtain ⟨parts, whole, rfl, uncaret⟩ := (parseFilter_iff text filter).mp (accepts filter written)
      rw [whole, parts.trim_text] at within
      exact uncaret plain within
    · have accepted := parseFilter_text text parts whole uncaret
      by_cases some' : ∃ filter, Written text filter
      · obtain ⟨filter, written⟩ := some'
        have same := accepts filter written
        rw [accepted] at same
        cases same
        obtain ⟨other, wholeOther, _, op, body, pair⟩ := written
        obtain ⟨opening, closing, bodies⟩ := parts.unique (whole.symm.trans wholeOther) op uncaret
        refine ⟨?_, ?_⟩
        · rwa [opening, closing]
        · rw [bodies, body]
          exact escape_escaped _
      · obtain ⟨error, rejected, _⟩ := rejects some'
        rw [accepted] at rejected
        cases rejected
  · rintro ⟨some_text, operator, quotes⟩
    refine ⟨fun filter written => ?_, fun none => ?_⟩
    · obtain ⟨_, _, _, reads⟩ := written.reads
      exact (parseFilter_iff text filter).mpr (reads fun both => operator filter written both.1 both.2)
    · cases parsed : parseFilter text with
      | error error => exact ⟨error, rfl, parseFilter_error parsed⟩
      | ok result =>
        cases result with
        | none => exact absurd ((parseFilter_none text).mp parsed) some_text
        | some filter =>
          obtain ⟨parts, whole, rfl, uncaret⟩ := (parseFilter_iff text filter).mp parsed
          obtain ⟨pair, escaped⟩ := quotes parts whole uncaret
          have value : parts.body = escape (String.ofList (unescape parts.body)).toList := by
            rw [String.toList_ofList, escape_unescape escaped]
          exact absurd ⟨⟨parts.attr, parts.isPrefix, String.ofList (unescape parts.body)⟩,
            parts, whole, rfl, rfl, value, pair⟩ none

/-- The text equals the value, or begins with it. -/
def Compares (isPrefix : Bool) (actual value : String) : Prop :=
  if isPrefix then value.toList <+: actual.toList else actual = value

/-- **The users that a filter describes**: letter case counts for `sub` and `status` only. -/
def Selects (filter : Filter) (user : User) : Prop :=
  ∃ actual, user.filtered filter.attr = some actual ∧
    if filter.attr = "sub" ∨ filter.attr = "status" then
      Compares filter.isPrefix actual filter.value
    else Compares filter.isPrefix (toLowercase actual) (toLowercase filter.value)

theorem compares_iff (isPrefix : Bool) (actual value : String) :
    (if isPrefix then startsWith actual value else actual == value) = true ↔
      Compares isPrefix actual value := by
  unfold Compares startsWith
  cases isPrefix with
  | true => exact List.isPrefixOf_iff_prefix
  | false => exact beq_iff_eq

theorem matches_iff (filter : Filter) (user : User) :
    filter.matches toLowercase user = true ↔ Selects toLowercase filter user := by
  unfold Filter.matches Selects
  cases user.filtered filter.attr with
  | none => exact ⟨nofun, fun ⟨_, wrong, _⟩ => nomatch wrong⟩
  | some actual =>
    simp only [Option.some.injEq, exists_eq_left']
    by_cases sensitive : filter.attr = "sub" ∨ filter.attr = "status"
    · have told : (filter.attr == "sub" || filter.attr == "status") = true := by simpa using sensitive
      rw [told, if_pos rfl, if_pos rfl, if_pos sensitive]
      exact compares_iff _ _ _
    · have told : (filter.attr == "sub" || filter.attr == "status") = false := by
        simpa using sensitive
      rw [told, if_neg Bool.false_ne_true, if_neg Bool.false_ne_true, if_neg sensitive]
      exact compares_iff _ _ _

/-- **The filters are read as described just in the strict texts**, and keep the users described. -/
theorem filters_read (text : String) :
    (AsDescribed text ↔ Strict text) ∧
      ∀ filter user, Filter.matches toLowercase filter user = true ↔ Selects toLowercase filter user :=
  ⟨asDescribed_iff text, matches_iff toLowercase⟩

/-! ### Samples -/

/-- The address in quotes, with blanks. -/
def plainParts (isPrefix : Bool) (body : List Char) : Parts where
  attr := "email"
  isPrefix := isPrefix
  body := body
  opening := []
  closing := []
  before := []
  behindAttr := [' ']
  behindOp := [' ']
  after := []
  known := by decide
  quotes := ⟨nofun, nofun⟩
  blanks := ⟨Blank.nil, Blank.space, Blank.space, Blank.nil⟩

/-- A value with an operator in it is refused; an attribute within more quotes is accepted. -/
theorem caret_in_value :
    (Written "email = \"a^=b\"" ⟨"email", false, "a^=b"⟩ ∧
      parseFilter "email = \"a^=b\"" =
        .error (err "InvalidParameterException" "Error while parsing filter: email = \"a^=b\"") ∧
      ¬ AsDescribed "email = \"a^=b\"") ∧
    parseFilter "\"\"email = \"a\"" = .ok (some ⟨"email", false, "a"⟩) := by
  have written : Written "email = \"a^=b\"" ⟨"email", false, "a^=b"⟩ :=
    ⟨plainParts false ['a', '^', '=', 'b'], rfl, rfl, rfl, rfl, .inl ⟨rfl, rfl⟩⟩
  have refused : parseFilter "email = \"a^=b\"" =
      .error (err "InvalidParameterException" "Error while parsing filter: email = \"a^=b\"") := by
    decide
  refine ⟨⟨written, refused, fun described => ?_⟩, by decide⟩
  have accepted := described.1 _ written
  rw [refused] at accepted
  cases accepted

end CloudTwin.Cognito
