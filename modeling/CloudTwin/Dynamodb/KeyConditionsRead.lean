/-
**What is accepted as a key condition.**

Every search that finds something cuts its text in parts, so a condition that is accepted is one of the
grammar, with what the searches ask for.

* `parseCondition_clause` — a part that is accepted is a clause.
* `Conjoined`, `splitAnd_conjoined` — the parts are joined by AND.
* `accepted_loose` — what is accepted is written loosely.
-/

import CloudTwin.Dynamodb.KeyConditions

namespace CloudTwin.Dynamodb

open Lib Lib.Text Lib.Words

variable {names values : Json} {lex : Lexicon}

/-! ### What is accepted is written -/

theorem toUpper_mark {char mark : Char} (upward : mark.val < 65) (same : char.toUpper = mark) :
    char = mark := by
  unfold Char.toUpper at same
  split at same
  · rename_i letter
    subst same
    obtain ⟨low, high⟩ := letter
    simp only [UInt32.le_iff_toNat_le, UInt32.lt_iff_toNat_lt] at low high upward
    have : char.val.toNat + (('A'.val - 'a'.val).toNat) ≥ 0 := Nat.zero_le _
    simp only [UInt32.toNat_add] at upward
    have wrap : ('A'.val - 'a'.val).toNat = 2 ^ 32 - 32 := by decide
    have a : 'a'.val.toNat = 97 := by decide
    have z : 'z'.val.toNat = 122 := by decide
    have limit : (65 : UInt32).toNat = 65 := by decide
    rw [wrap, limit] at upward
    rw [a] at low
    rw [z] at high
    omega
  · exact same

theorem trimChars_spec (chars : List Char) : ∃ before after, Words.Blank before ∧ Words.Blank after ∧
    chars = before ++ (trimChars chars ++ after) :=
  trimBy_spec chars

theorem nameText_resolve (token : List Char) (names : Json) :
    NameText names token (resolveToken token names) := by
  have own : NameText names token (String.ofList token) := by
    have named : NameText names (String.ofList token).toList (String.ofList token) := .own _
    rw [String.toList_ofList] at named
    exact named
  rw [resolveToken_eq]
  split
  · rename_i hash
    cases given : names.get (String.ofList token) with
    | none => exact own
    | some value =>
      cases value with
      | str name =>
        have placed : NameText names (String.ofList token).toList name :=
          .placeholder (by rw [String.toList_ofList]; exact hash) given
        rw [String.toList_ofList] at placed
        exact placed
      | _ => exact own
  · exact own

/-- A value that is found stands between blanks. -/
theorem resolveValue_ok {token : List Char} {value : Json}
    (found : resolveValue token values = .ok value) :
    ∃ before text after, Words.Blank before ∧ Words.Blank after ∧ token = before ++ (text ++ after) ∧
      ValueText values text value := by
  obtain ⟨before, after, one, two, whole⟩ := trimChars_spec token
  refine ⟨before, trimChars token, after, one, two, whole, ?_⟩
  unfold resolveValue at found
  unfold ValueText
  split at found
  · rename_i given
    cases found
    exact given
  · cases found

/-- A keyword that is found stands between two spaces. -/
theorem keyword_found {word : List Char} {text : List Char} {index : Nat}
    (found : findSub (gap word) (upper text) = some index) :
    ∃ written, upper written = word ∧ text = text.take index ++
      ' ' :: (written ++ ' ' :: text.drop (index + (word.length + 2))) := by
  have whole := findSub_split found
  obtain ⟨before, rest, rfl, isBefore, isRest⟩ := List.map_eq_append_iff.mp whole
  obtain ⟨middle, after, rfl, isMiddle, isAfter⟩ := List.map_eq_append_iff.mp isRest
  obtain ⟨first, tail, rfl, isFirst, isTail⟩ := List.map_eq_cons_iff.mp isMiddle
  obtain ⟨written, last, rfl, isWritten, isLast⟩ := List.map_eq_append_iff.mp isTail
  obtain ⟨stop, none, rfl, isStop, isNone⟩ := List.map_eq_cons_iff.mp isLast
  cases List.map_eq_nil_iff.mp isNone
  have space : (' ' : Char).val < 65 := by decide
  obtain rfl := toUpper_mark space isFirst
  obtain rfl := toUpper_mark space isStop
  have long := findSub_length found
  have size : before.length = index := by
    have same := congrArg List.length isBefore
    rw [List.length_map, List.length_take] at same
    omega
  have wordSize : written.length = word.length := by
    rw [← isWritten, List.length_map]
  refine ⟨written, isWritten, ?_⟩
  subst size
  rw [List.take_left]
  refine congrArg (before ++ ·) ?_
  have shape : before ++ (' ' :: (written ++ [' ']) ++ after) =
      (before ++ ' ' :: (written ++ [' '])) ++ after := by
    rw [List.append_assoc]
  have behind : (before ++ (' ' :: (written ++ [' ']) ++ after)).drop
      (before.length + (word.length + 2)) = after := by
    rw [shape]
    refine List.drop_left' ?_
    simp only [List.length_append, List.length_cons, List.length_nil]
    omega
  rw [behind]
  simp

theorem ClauseText.blanks {name : String} {cond : SortCond} {before text after : List Char}
    (one : Words.Blank before) (two : Words.Blank after) (clause : ClauseText lex name cond text) :
    ClauseText lex name cond (before ++ (text ++ after)) := by
  cases clause with
  | @core first inner last three four core =>
    have moved := ClauseText.core (one.append three) (four.append two) core
    simpa only [List.append_assoc] using moved
  | @parens first inner last three four clause =>
    have moved := ClauseText.parens (one.append three) (four.append two) clause
    simpa only [List.append_assoc, List.cons_append] using moved

theorem ClauseText.of_trim {name : String} {cond : SortCond} {text : List Char}
    (clause : ClauseText lex name cond (trimChars text)) :
    ClauseText lex name cond text := by
  obtain ⟨before, after, one, two, whole⟩ := trimChars_spec text
  rw [whole]
  exact clause.blanks one two

theorem ClauseText.of_core {name : String} {cond : SortCond} {text : List Char}
    (core : Core lex name cond text) : ClauseText lex name cond text := by
  have bare := ClauseText.core Words.Blank.nil Words.Blank.nil core
  rw [List.nil_append, List.append_nil] at bare
  exact bare

/-- The parentheses that were taken away are put back. -/
theorem ClauseText.of_strip {name : String} {cond : SortCond} :
    ∀ {fuel : Nat} {p : List Char}, ClauseText lex name cond (stripFrom fuel p) →
      ClauseText lex name cond p
  | 0, _, clause => clause
  | fuel + 1, p, clause => by
    unfold stripFrom at clause
    split at clause
    · rename_i around
      obtain ⟨opens, closes⟩ := around
      have inner := (ClauseText.of_strip clause).of_trim
      cases p with
      | nil => cases opens
      | cons first rest =>
        cases opens
        cases rest.eq_nil_or_concat with
        | inl empty =>
          subst empty
          cases closes
        | inr more =>
          obtain ⟨body, last, rfl⟩ := more
          rw [List.concat_eq_append] at closes inner ⊢
          have last' : last = ')' := by
            rw [← List.cons_append, List.getLast?_concat] at closes
            exact Option.some.inj closes
          subst last'
          rw [List.drop_one, List.tail_cons, List.dropLast_concat] at inner
          have wrapped := ClauseText.parens Words.Blank.nil Words.Blank.nil inner
          rw [List.nil_append] at wrapped
          exact wrapped
    · exact clause

theorem stripFrom_solid : ∀ (fuel : Nat) {p : List Char}, Solid p → Solid (stripFrom fuel p)
  | 0, _, solid => solid
  | fuel + 1, p, solid => by
    unfold stripFrom
    split
    · exact stripFrom_solid fuel (trimBy_isSolid _)
    · exact solid

/-- The name in front of what a search finds is no `begins_with`. -/
theorem name_start {p : List Char} {pos : Nat} (solid : Solid p) (noBegins : ¬beginsText <+: lower p) :
    ¬beginsText <+: lower (trimChars (p.take pos)) := by
  intro starts
  obtain ⟨before, after, one, -, whole⟩ := trimChars_spec (p.take pos)
  have split : p = before ++ (trimChars (p.take pos) ++ (after ++ p.drop pos)) := by
    have cut := (List.take_append_drop pos p).symm
    rwa [whole, List.append_assoc, List.append_assoc] at cut
  generalize trimChars (p.take pos) = text at *
  have none : before = [] := solid_start one (split ▸ solid)
  subst none
  refine noBegins (starts.trans ?_)
  rw [split, List.nil_append, lower, lower, List.map_append]
  exact List.prefix_append _ _

/-- What a name in front of a place holds stands in front of the place. -/
theorem name_inside (p : List Char) (pos : Nat) : trimChars (p.take pos) <:+: p.take pos := by
  obtain ⟨before, after, -, -, whole⟩ := trimChars_spec (p.take pos)
  exact ⟨before, after, by rw [List.append_assoc]; exact whole.symm⟩

theorem upper_inside {part text : List Char} (inside : part <:+: text) : upper part <:+: upper text :=
  inside.map Char.toUpper

section Cuts

variable {p : List Char} {pos : Nat}

theorem clause_cmp {op : String} {value : Json} {before after : List String} (solid : Solid p)
    (noBegins : ¬beginsText <+: lower p) (noBetween : findSub betweenText (upper p) = none)
    (isOps : comparisonOps = before ++ op :: after)
    (passed : ∀ other ∈ before, findSub other.toList p = none) (found : findSub op.toList p = some pos)
    (resolved : resolveValue (p.drop (pos + op.toList.length)) values = .ok value) :
    ClauseText (loose names values) (resolveToken (trimChars (p.take pos)) names) (.cmp op value) p := by
  have isOp : op ∈ comparisonOps := isOps ▸ List.mem_append_right _ List.mem_cons_self
  have filled : op.toList ≠ [] := by
    simp only [comparisonOps, List.mem_cons, List.not_mem_nil, or_false] at isOp
    rcases isOp with rfl | rfl | rfl | rfl | rfl <;> decide
  have inside := name_inside p pos
  have inText := inside.trans (List.take_prefix pos p).isInfix
  have reached : Reached (trimChars (p.take pos)) (.cmp op value) := by
    refine ⟨fun holds => findSub_none.mp noBetween (holds.trans (upper_inside inText)), before, after,
      isOps, fun other member holds => ?_⟩
    rcases List.mem_cons.mp member with rfl | earlier
    · exact findSub_before filled found (holds.trans inside)
    · exact findSub_none.mp (passed other earlier) (holds.trans inText)
  have noStart := @name_start p pos solid noBegins
  have isName := nameText_resolve (trimChars (p.take pos)) names
  obtain ⟨more, token, rest, two, three, isAfter, isValue⟩ := resolveValue_ok resolved
  obtain ⟨front, blanks, one, four, isBefore⟩ := trimChars_spec (p.take pos)
  have whole := findSub_split found
  rw [isAfter, isBefore] at whole
  generalize trimChars (p.take pos) = text at *
  have core : Core (loose names values) _ _ _ := .cmp isOp ⟨isName, fun _ => noStart, reached⟩ four two isValue
  have written := ClauseText.core one three core
  rw [whole]
  simpa only [List.append_assoc] using written

theorem parseComparison_clause {part : List Char} {name : String} {cond : SortCond} (solid : Solid p)
    (noBegins : ¬beginsText <+: lower p) (noBetween : findSub betweenText (upper p) = none) :
    ∀ {before ops : List String}, comparisonOps = before ++ ops →
      (∀ other ∈ before, findSub other.toList p = none) →
      parseComparison part p names values ops = .ok (name, cond) →
      ClauseText (loose names values) name cond p := by
  intro before ops
  induction ops generalizing before with
  | nil => intro _ _ parsed; cases parsed
  | cons op ops ih =>
    intro isOps passed parsed
    unfold parseComparison at parsed
    split at parsed
    · rename_i pos found
      cases resolved : resolveValue (p.drop (pos + op.toList.length)) values with
      | error message =>
        rw [resolved] at parsed
        cases parsed
      | ok value =>
        rw [resolved] at parsed
        cases parsed
        exact clause_cmp solid noBegins noBetween isOps passed found resolved
    · rename_i absent
      refine @ih (before ++ [op]) ?_ (fun other member => ?_) parsed
      · rw [isOps, List.append_assoc, List.singleton_append]
      · rcases List.mem_append.mp member with earlier | last
        · exact passed other earlier
        · exact List.mem_singleton.mp last ▸ absent

theorem clause_between {bpos apos : Nat} {low high : Json} (solid : Solid p)
    (noBegins : ¬beginsText <+: lower p) (between : findSub betweenText (upper p) = some bpos)
    (and : findSub andText (upper (p.drop (bpos + 9))) = some apos)
    (isLow : resolveValue ((p.drop (bpos + 9)).take apos) values = .ok low)
    (isHigh : resolveValue ((p.drop (bpos + 9)).drop (apos + 5)) values = .ok high) :
    ClauseText (loose names values) (resolveToken (trimChars (p.take bpos)) names) (.between low high) p := by
  obtain ⟨word, isBetween, whole⟩ := keyword_found between
  obtain ⟨join, isAnd, rest⟩ := keyword_found and
  obtain ⟨b₂, first, b₃, two, three, isFirst, lowText⟩ := resolveValue_ok isLow
  obtain ⟨b₄, second, after, four, five, isSecond, highText⟩ := resolveValue_ok isHigh
  obtain ⟨before, b₁, zero, one, isBefore⟩ := trimChars_spec (p.take bpos)
  have space : Words.Blank [' '] := fun char member => List.mem_singleton.mp member ▸ (by decide)
  have noStart := @name_start p bpos solid noBegins
  have reached : Reached (trimChars (p.take bpos)) (.between low high) := by
    intro holds
    have front : upper (p.take bpos) = (upper p).take bpos := List.map_take
    refine findSub_before (List.cons_ne_nil _ _) between (holds.trans ?_)
    rw [← front]
    exact upper_inside (name_inside p bpos)
  have isName := nameText_resolve (trimChars (p.take bpos)) names
  generalize trimChars (p.take bpos) = text at *
  have core : Core (loose names values) _ _ _ := .between ⟨isName, fun _ => noStart, reached⟩ isBetween
    isAnd lowText highText
    ⟨one.append space, List.getLast?_concat⟩ ⟨space.append two, rfl⟩
    ⟨three.append space, List.getLast?_concat⟩ ⟨space.append four, rfl⟩
  have written := ClauseText.core zero five core
  have size : bpos + ("BETWEEN".toList.length + 2) = bpos + 9 := rfl
  have size' : apos + ("AND".toList.length + 2) = apos + 5 := rfl
  rw [size'] at rest
  rw [size, rest, isFirst, isSecond, isBefore] at whole
  rw [whole]
  simpa only [List.append_assoc, List.cons_append, List.nil_append] using written

end Cuts

theorem rsplitOnceAt_spec {char : Char} {text before after : List Char}
    (cut : rsplitOnceAt char text = some (before, after)) :
    text = before ++ char :: after ∧ char ∉ after := by
  obtain ⟨⟨first, rest⟩, reversed, same⟩ := Option.map_eq_some_iff.mp cut
  obtain ⟨rfl, rfl⟩ := Prod.mk.inj same
  obtain ⟨whole, absent⟩ := splitOnceAt_spec reversed
  refine ⟨?_, fun member => absent (List.mem_reverse.mp member)⟩
  rw [← List.reverse_reverse text, whole, List.reverse_append, List.reverse_cons, List.append_assoc,
    List.singleton_append]

/-- What `begins_with` is followed by, up to the first parenthesis. -/
theorem begins_word {front rest : List Char} (starts : beginsText <+: lower (front ++ '(' :: rest)) :
    ∃ word blanks, front = word ++ blanks ∧ lower word = beginsText := by
  have whole : lower (front ++ '(' :: rest) = (lower front ++ ['(']) ++ lower rest := by
    have paren : Char.toLower '(' = '(' := by decide
    unfold lower
    rw [List.map_append, List.map_cons, paren, List.append_assoc, List.singleton_append]
  have inFront : beginsText <+: lower front := by
    by_cases long : beginsText.length ≤ (lower front).length
    · refine List.prefix_of_prefix_length_le starts ?_ long
      rw [whole, List.append_assoc]
      exact List.prefix_append _ _
    · have inside : lower front ++ ['('] <+: beginsText := by
        refine List.prefix_of_prefix_length_le (List.prefix_append _ (lower rest)) (whole ▸ starts) ?_
        rw [List.length_append, List.length_singleton]
        omega
      exact absurd (inside.subset (List.mem_append_right _ List.mem_cons_self)) (by decide)
  refine ⟨front.take beginsText.length, front.drop beginsText.length,
    (List.take_append_drop _ front).symm, ?_⟩
  rw [lower, List.map_take]
  exact (List.prefix_iff_eq_take.mp inFront).symm

theorem clause_begins {p name value : List Char} {start : Json}
    (begins : beginsText.isPrefixOf (lower p) = true)
    (cut : (insideParens p).bind (splitOnceAt ',') = some (name, value))
    (resolved : resolveValue value values = .ok start) :
    ClauseText (loose names values) (resolveToken (trimChars name) names) (.beginsWith start) p := by
  obtain ⟨inner, inside, cut⟩ := Option.bind_eq_some_iff.mp cut
  obtain ⟨⟨front, behind⟩, opened, inside⟩ := Option.bind_eq_some_iff.mp inside
  obtain ⟨⟨held, last⟩, closed, same⟩ := Option.bind_eq_some_iff.mp inside
  obtain rfl := Option.some.inj same
  obtain ⟨isFront, noOpen⟩ := splitOnceAt_spec opened
  obtain ⟨isBehind, noClose⟩ := rsplitOnceAt_spec closed
  obtain ⟨isInner, noComma⟩ := splitOnceAt_spec cut
  have starts := List.isPrefixOf_iff_prefix.mp begins
  rw [isFront] at starts
  obtain ⟨word, b₁, isWord, isBegins⟩ := begins_word starts
  rw [isWord] at noOpen
  obtain ⟨b₂, b₃, two, three, isText⟩ := trimChars_spec name
  have reached : Reached (trimChars name) (.beginsWith start) := by
    intro member
    rw [isText] at noComma
    exact noComma (List.mem_append_right _ (List.mem_append_left _ member))
  obtain ⟨b₄, token, b₅, four, five, isToken, isStart⟩ := resolveValue_ok resolved
  have isName := nameText_resolve (trimChars name) names
  have core : Core (loose names values) _ _ _ := .beginsWith ⟨isName, (fun wrong => nomatch wrong), reached⟩
    isBegins isStart (fun member => noOpen (List.mem_append_right _ member)) two three four five noClose
  generalize trimChars name = text at *
  refine ClauseText.of_core ?_
  rw [isFront, isWord, isBehind, isInner, isText, isToken]
  simpa only [List.append_assoc, List.cons_append] using core

/-- **A part that parses is written as the grammar has it.** -/
theorem parseCondition_clause {part : List Char} {name : String} {cond : SortCond}
    (parsed : parseCondition part names values = .ok (name, cond)) :
    ClauseText (loose names values) name cond part := by
  refine ClauseText.of_trim (@ClauseText.of_strip _ _ _ part.length _ ?_)
  show ClauseText (loose names values) name cond (stripped part)
  have solid : Solid (stripped part) := stripFrom_solid _ (trimBy_isSolid part)
  unfold parseCondition at parsed
  dsimp only at parsed
  split at parsed
  · rename_i begins
    split at parsed
    · cases parsed
    · rename_i text value cut
      cases resolved : resolveValue value values with
      | error message =>
        rw [resolved] at parsed
        cases parsed
      | ok start =>
        rw [resolved] at parsed
        cases parsed
        exact clause_begins begins cut resolved
  · rename_i noBegins
    rw [List.isPrefixOf_iff_prefix] at noBegins
    split at parsed
    · rename_i bpos between
      split at parsed
      · cases parsed
      · rename_i apos and
        cases isLow : resolveValue (((stripped part).drop (bpos + 9)).take apos) values with
        | error message =>
          rw [isLow] at parsed
          cases parsed
        | ok low =>
          cases isHigh : resolveValue (((stripped part).drop (bpos + 9)).drop (apos + 5)) values with
          | error message =>
            rw [isLow, isHigh] at parsed
            cases parsed
          | ok high =>
            rw [isLow, isHigh] at parsed
            cases parsed
            exact clause_between solid noBegins between and isLow isHigh
    · rename_i noBetween
      exact parseComparison_clause solid noBegins noBetween rfl
        (fun _ wrong => absurd wrong List.not_mem_nil) parsed

/-! ### The parts of an expression -/

/-- The parts of a text, with a conjunction between two of them. -/
def Conjoined : List (List Char) → List Char → Prop
  | [], _ => False
  | [only], text => only = trimChars text
  | part :: next :: parts, text => ∃ first and second, text = first ++ ' ' :: (and ++ ' ' :: second) ∧
      upper and = "AND".toList ∧ part = trimChars first ∧ Conjoined (next :: parts) second

theorem Conjoined.cons {parts : List (List Char)} {first and second : List Char}
    (isAnd : upper and = "AND".toList) (conjoined : Conjoined parts second) :
    Conjoined (trimChars first :: parts) (first ++ ' ' :: (and ++ ' ' :: second)) := by
  cases parts with
  | nil => exact conjoined.elim
  | cons next parts => exact ⟨first, and, second, rfl, isAnd, rfl, conjoined⟩

theorem splitAndFrom_conjoined : ∀ (fuel : Nat) (passed rest : List Char) (pending : Bool),
    Conjoined (splitAndFrom fuel passed pending rest) (passed ++ rest) := by
  intro fuel
  induction fuel with
  | zero => exact fun _ _ _ => rfl
  | succ fuel ih =>
    intro passed rest pending
    unfold splitAndFrom
    split
    · rfl
    · rename_i pos found
      obtain ⟨and, isAnd, whole⟩ := keyword_found found
      have size : pos + ("AND".toList.length + 2) = pos + 5 := rfl
      rw [size] at whole
      dsimp only
      split
      · have further := ih (passed ++ rest.take (pos + 5)) (rest.drop (pos + 5)) true
        rw [List.append_assoc, List.take_append_drop] at further
        exact further
      · have further := ih [] (rest.drop (pos + 5)) false
        have joined := @Conjoined.cons _ (passed ++ rest.take pos) _ _ isAnd further
        rw [List.nil_append, List.append_assoc, ← whole] at joined
        exact joined

theorem splitAnd_conjoined (expr : List Char) : Conjoined (splitAnd expr) expr :=
  splitAndFrom_conjoined _ [] expr false

/-! ### The conditions of the parts -/

/-- The value of an equality of the hash key. -/
def hashValue (hashKey name : String) : SortCond → Option Json
  | .cmp op value => if op = "=" ∧ name = hashKey then some value else none
  | _ => none

theorem hashValue_cmp (hashKey name op : String) (value : Json) :
    hashValue hashKey name (.cmp op value) =
      if op = "=" ∧ name = hashKey then some value else none := rfl

theorem hashValue_some {hashKey name : String} {cond : SortCond} {value : Json} :
    hashValue hashKey name cond = some value ↔ name = hashKey ∧ cond = .cmp "=" value := by
  cases cond with
  | cmp op given =>
    rw [hashValue_cmp]
    by_cases equality : op = "=" ∧ name = hashKey
    · obtain ⟨rfl, rfl⟩ := equality
      simp
    · rw [if_neg equality]
      constructor
      · intro wrong
        cases wrong
      · rintro ⟨rfl, same⟩
        cases same
        exact absurd ⟨rfl, rfl⟩ equality
  | _ => simp [hashValue]

theorem collect_cons {hashKey name : String} {part : List Char} {cond : SortCond}
    (parsed : parseCondition part names values = .ok (name, cond)) (parts : List (List Char))
    (pk : Option Json) (sort : Option (String × SortCond)) :
    collectConditions names values hashKey (part :: parts) pk sort =
      match hashValue hashKey name cond, pk with
      | some value, none => collectConditions names values hashKey parts (some value) sort
      | _, _ => collectConditions names values hashKey parts pk (some (name, cond)) := by
  rw [collectConditions, parsed]
  cases cond with
  | cmp op value =>
    show (if op = "=" ∧ name = hashKey ∧ pk.isNone = true then _ else _) = _
    rw [hashValue_cmp]
    cases pk with
    | none =>
      by_cases equality : op = "=" ∧ name = hashKey
      · rw [if_pos equality, if_pos ⟨equality.1, equality.2, rfl⟩]
      · rw [if_neg equality, if_neg fun wrong => equality ⟨wrong.1, wrong.2.1⟩]
    | some held =>
      rw [if_neg fun wrong => Bool.false_ne_true wrong.2.2]
      split <;> first | rfl | contradiction
  | _ => rfl

theorem collect_parsed {hashKey : String} {part : List Char} {parts : List (List Char)}
    {pk : Option Json} {sort : Option (String × SortCond)}
    {result : Option Json × Option (String × SortCond)}
    (collected : collectConditions names values hashKey (part :: parts) pk sort = .ok result) :
    ∃ name cond, parseCondition part names values = .ok (name, cond) := by
  cases parsed : parseCondition part names values with
  | error message =>
    rw [collectConditions, parsed] at collected
    cases collected
  | ok pair => exact ⟨pair.1, pair.2, rfl⟩

theorem collect_one {hashKey : String} {part : List Char} {value : Json}
    {sort : Option (String × SortCond)}
    (collected : collectConditions names values hashKey [part] none none = .ok (some value, sort)) :
    parseCondition part names values = .ok (hashKey, .cmp "=" value) ∧ sort = none := by
  obtain ⟨name, cond, parsed⟩ := collect_parsed collected
  rw [collect_cons parsed] at collected
  cases equality : hashValue hashKey name cond with
  | none =>
    rw [equality] at collected
    cases collected
  | some found =>
    rw [equality] at collected
    cases collected
    obtain ⟨rfl, rfl⟩ := hashValue_some.mp equality
    exact ⟨parsed, rfl⟩

theorem collect_two {hashKey : String} {first second : List Char} {value : Json}
    {sort : Option (String × SortCond)}
    (collected : collectConditions names values hashKey [first, second] none none =
      .ok (some value, sort)) :
    ∃ name cond, sort = some (name, cond) ∧
      (parseCondition first names values = .ok (hashKey, .cmp "=" value) ∧
          parseCondition second names values = .ok (name, cond) ∨
        parseCondition first names values = .ok (name, cond) ∧
          parseCondition second names values = .ok (hashKey, .cmp "=" value)) := by
  obtain ⟨name, cond, parsed⟩ := collect_parsed collected
  rw [collect_cons parsed] at collected
  cases equality : hashValue hashKey name cond with
  | some found =>
    rw [equality] at collected
    dsimp only at collected
    obtain ⟨other, another, more⟩ := collect_parsed collected
    rw [collect_cons more] at collected
    have result : Except.ok (some found, some (other, another)) = (Except.ok (some value, sort) :
        Except String (Option Json × Option (String × SortCond))) := by
      rw [← collected]
      split
      · contradiction
      · rfl
    cases result
    obtain ⟨rfl, rfl⟩ := hashValue_some.mp equality
    exact ⟨other, another, rfl, .inl ⟨parsed, more⟩⟩
  | none =>
    rw [equality] at collected
    dsimp only at collected
    obtain ⟨other, another, more⟩ := collect_parsed collected
    rw [collect_cons more] at collected
    cases again : hashValue hashKey other another with
    | none =>
      rw [again] at collected
      cases collected
    | some found =>
      rw [again] at collected
      cases collected
      obtain ⟨rfl, rfl⟩ := hashValue_some.mp again
      exact ⟨name, cond, rfl, .inr ⟨parsed, more⟩⟩

/-! ### What is accepted is written -/

theorem parse_ok {expr hashKey : String} {cond : KeyCondition}
    (parsed : parse expr names values hashKey = .ok cond) :
    (splitAnd expr.toList).length ≤ 2 ∧ cond.pkName = hashKey ∧
      collectConditions names values hashKey (splitAnd expr.toList) none none =
        .ok (some cond.pkValue, cond.sort) := by
  unfold parse at parsed
  dsimp only at parsed
  split at parsed
  · cases parsed
  · rename_i few
    cases collected : collectConditions names values hashKey (splitAnd expr.toList) none none with
    | error message =>
      rw [collected] at parsed
      cases parsed
    | ok pair =>
      obtain ⟨pk, sort⟩ := pair
      rw [collected] at parsed
      cases pk with
      | none => cases parsed
      | some value =>
        cases parsed
        exact ⟨Nat.le_of_not_lt fun many => few (.inr many), rfl, rfl⟩

theorem loose_of_parts {expr : List Char} {hash : String} {range : Option String}
    {value : Json} {sort : Option (String × SortCond)} {parts : List (List Char)}
    (conjoined : Conjoined parts expr) (few : parts.length ≤ 2)
    (ranged : ∀ name cond, sort = some (name, cond) → range.any (fun key => name != key) = false)
    (collected : collectConditions names values hash parts none none = .ok (some value, sort)) :
    Written (loose names values) hash range ⟨hash, value, sort⟩ expr := by
  match parts with
  | [] => exact conjoined.elim
  | [part] =>
    obtain ⟨parsed, rfl⟩ := collect_one collected
    have clause := parseCondition_clause parsed
    have whole : part = trimChars expr := conjoined
    subst whole
    exact .alone clause.of_trim
  | [first, second] =>
    obtain ⟨one, and, two, rfl, isAnd, rfl, isSecond⟩ := conjoined
    have isSecond : second = trimChars two := isSecond
    subst isSecond
    obtain ⟨name, cond, rfl, orders⟩ := collect_two collected
    have keyed : (loose names values).keyed range name := by
      rintro key rfl
      simpa using ranged name cond rfl
    rcases orders with ⟨isHash, isRange⟩ | ⟨isRange, isHash⟩
    · exact .hashFirst (parseCondition_clause isHash).of_trim keyed
        (parseCondition_clause isRange).of_trim isAnd rfl rfl
    · exact .rangeFirst (parseCondition_clause isRange).of_trim keyed trivial
        (parseCondition_clause isHash).of_trim isAnd rfl rfl
  | _ :: _ :: _ :: _ => exact absurd few (by simp)

/-- **What is accepted is written loosely**, in at most two parts. -/
theorem accepted_loose {expr hash : String} {range : Option String} {names values : Option Json}
    {cond : KeyCondition} (accepted : validateQuery (some expr) names values hash range = .ok cond) :
    (splitAnd expr.toList).length ≤ 2 ∧
      Written (loose (names.getD (.obj [])) (values.getD (.obj []))) hash range cond expr.toList := by
  unfold validateQuery at accepted
  dsimp only at accepted
  cases parsed : parse expr (names.getD (.obj [])) (values.getD (.obj [])) hash with
  | error message =>
    rw [parsed] at accepted
    cases accepted
  | ok found =>
    rw [parsed] at accepted
    dsimp only at accepted
    split at accepted
    · cases accepted
    · rename_i supported
      obtain rfl := Except.ok.inj accepted
      obtain ⟨few, isHash, collected⟩ := parse_ok parsed
      have written := @loose_of_parts _ _ _ _ range _ _ _ (splitAnd_conjoined expr.toList) few
        (fun name cond isSort => ?_) collected
      · obtain ⟨pkName, pkValue, sort⟩ := found
        obtain rfl : pkName = hash := isHash
        exact ⟨few, written⟩
      · rw [isSort] at supported
        exact Bool.eq_false_iff.mpr supported

end CloudTwin.Dynamodb
