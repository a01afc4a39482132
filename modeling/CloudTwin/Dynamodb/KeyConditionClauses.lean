/-
**One condition, written and parsed.**

* `plain` — the lexicon of words, with spaces next to the keywords.
* `parse_cmp`, `parse_between`, `parse_begins`, `parse_clause` — a clause is parsed as its condition.
* `Whole`, `whole_clause` — the only ` AND ` of a clause is that of a BETWEEN.
-/

import CloudTwin.Dynamodb.KeyConditionTokens

namespace CloudTwin.Dynamodb

open Lib Lib.Text Lib.Words

section One

variable {names values : Json}

/-! ### What is written is accepted: the searches of one part -/

theorem blank_first {blanks : List Char} (blank : Words.Blank blanks) (space : blanks.head? = some ' ') :
    ∃ rest, blanks = ' ' :: rest ∧ Words.Blank rest := by
  cases blanks with
  | nil => cases space
  | cons first rest =>
    obtain rfl := Option.some.inj space
    exact ⟨rest, rfl, fun char member => blank char (List.mem_cons_of_mem _ member)⟩

theorem blank_last {blanks : List Char} (blank : Words.Blank blanks)
    (space : blanks.getLast? = some ' ') : ∃ rest, blanks = rest ++ [' '] ∧ Words.Blank rest := by
  rcases blanks.eq_nil_or_concat with rfl | ⟨rest, last, rfl⟩
  · cases space
  · rw [List.concat_eq_append] at blank space ⊢
    rw [List.getLast?_concat] at space
    obtain rfl := Option.some.inj space
    exact ⟨rest, rfl, fun char member => blank char (List.mem_append_left _ member)⟩

/-- **The words of key conditions**: names and values are words that the searches pass over, with spaces
next to the keywords; where the range key is the hash key, an equality of it does not come first. -/
def plain (names values : Json) (hash : String) : Lexicon where
  name cond text name := NameToken names text name ∧ (cond.begins = false → ¬beginsText <+: lower text)
  value token value := Plain token ∧ ValueText values token value
  before blanks := Words.Blank blanks ∧ blanks.getLast? = some ' '
  after blanks := Words.Blank blanks ∧ blanks.head? = some ' '
  opening := Words.Blank
  closing rest := rest = []
  join char := char = ' '
  keyed range key := range = some key
  leads key cond := hashValue hash key cond = none

section Parsed

variable {name : String}

theorem drop_keyword {before written after : List Char} {size : Nat} (counted : written.length = size) :
    (before ++ ' ' :: (written ++ ' ' :: after)).drop (before.length + (size + 2)) = after := by
  have shape : before ++ ' ' :: (written ++ ' ' :: after) =
      (before ++ (' ' :: (written ++ [' ']))) ++ after := by
    simp only [List.append_assoc, List.cons_append, List.nil_append]
  rw [shape]
  exact List.drop_left' (by simp [counted])

theorem upper_length {written word : List Char} (isWord : upper written = word) :
    written.length = word.length := by
  rw [← isWord, upper, List.length_map]

theorem op_next {op : String} (isOp : op ∈ comparisonOps) (rest : List Char) :
    ∃ next more, op.toList ++ rest = next :: more ∧ next.toLower ∉ beginsText := by
  simp only [comparisonOps, List.mem_cons, List.not_mem_nil, or_false] at isOp
  rcases isOp with rfl | rfl | rfl | rfl | rfl
  · exact ⟨'<', '=' :: rest, rfl, by decide⟩
  · exact ⟨'>', '=' :: rest, rfl, by decide⟩
  · exact ⟨'<', rest, rfl, by decide⟩
  · exact ⟨'>', rest, rfl, by decide⟩
  · exact ⟨'=', rest, rfl, by decide⟩

/-- A comparison between blanks is quiet. -/
theorem quiet_cmp {word : List Char} (keyword : Keyword word) {op : String} (isOp : op ∈ comparisonOps)
    {before text blanks more token after : List Char} (zero : Words.Blank before)
    (plain : Plain text) (one : Words.Blank blanks) (two : Words.Blank more) (plainToken : Plain token)
    (three : Words.Blank after) :
    Quiet word (before ++ ((text ++ (blanks ++ (op.toList ++ (more ++ token)))) ++ after)) := by
  have front : Quiet word (before ++ (text ++ blanks)) :=
    Quiet.plain keyword zero plain (Ends.blank one) (Quiet.blank keyword one)
  have tail : Quiet word (more ++ (token ++ after)) :=
    Quiet.plain keyword two plainToken (Ends.blank three) (Quiet.blank keyword three)
  have empty : Quiet word [] := Quiet.blank keyword Words.Blank.nil
  have one' : ∀ mark ∈ marks, Quiet word (before ++ ((text ++ (blanks ++ ([mark] ++ (more ++ token)))) ++
      after)) := by
    intro mark isMark
    have whole := Quiet.mark keyword isMark front tail
    simpa only [List.append_assoc, List.cons_append, List.nil_append] using whole
  have two' : ∀ first ∈ marks, ∀ second ∈ marks, Quiet word (before ++ ((text ++ (blanks ++
      ([first, second] ++ (more ++ token)))) ++ after)) := by
    intro first isFirst second isSecond
    have whole := Quiet.mark keyword isFirst front (Quiet.mark keyword isSecond empty tail)
    simpa only [List.append_assoc, List.cons_append, List.nil_append] using whole
  simp only [comparisonOps, List.mem_cons, List.not_mem_nil, or_false] at isOp
  rcases isOp with rfl | rfl | rfl | rfl | rfl
  · exact two' '<' (by decide) '=' (by decide)
  · exact two' '>' (by decide) '=' (by decide)
  · exact one' '<' (by decide)
  · exact one' '>' (by decide)
  · exact one' '=' (by decide)

theorem parse_cmp {op : String} {value : Json} {text blanks more token part : List Char}
    (isOp : op ∈ comparisonOps) (isName : NameToken names text name) (noBegins : ¬beginsText <+: lower text)
    (one : Words.Blank blanks) (two : Words.Blank more) (plain : Plain token)
    (isValue : ValueText values token value)
    (isStripped : stripped part = text ++ (blanks ++ (op.toList ++ (more ++ token)))) :
    parseCondition part names values = .ok (name, .cmp op value) := by
  have notBegins : beginsText.isPrefixOf (lower (stripped part)) = false := by
    rw [Bool.eq_false_iff, ne_eq, List.isPrefixOf_iff_prefix, isStripped]
    cases blanks with
    | nil =>
      obtain ⟨next, rest, shape, other⟩ := op_next isOp (more ++ token)
      rw [List.nil_append, shape]
      exact no_begins noBegins other
    | cons first blanks => exact no_begins noBegins (blank_begins (one first List.mem_cons_self))
  have quiet := quiet_cmp .between isOp Words.Blank.nil isName.toPlain one two plain Words.Blank.nil
  rw [List.nil_append, List.append_nil] at quiet
  have noBetween : findSub betweenText (upper (stripped part)) = none := by
    rw [isStripped]
    exact keyword_absent quiet
  unfold parseCondition
  dsimp only
  rw [notBegins, if_neg Bool.false_ne_true, noBetween]
  dsimp only
  rw [isStripped]
  exact parseComparison_cmp part isOp isName one two plain isValue

theorem parse_between {low high : Json} {text between first and second b₁ b₂ b₃ b₄ part : List Char}
    (isName : NameToken names text name) (noBegins : ¬beginsText <+: lower text)
    (isBetween : upper between = "BETWEEN".toList) (isAnd : upper and = "AND".toList)
    (plainFirst : Plain first) (isLow : ValueText values first low) (plainSecond : Plain second)
    (isHigh : ValueText values second high) (one : Words.Blank b₁) (two : Words.Blank b₂)
    (three : Words.Blank b₃) (four : Words.Blank b₄)
    (isStripped : stripped part = (text ++ b₁) ++ ' ' :: (between ++ ' ' :: ((b₂ ++ (first ++ b₃)) ++
      ' ' :: (and ++ ' ' :: (b₄ ++ second))))) :
    parseCondition part names values = .ok (name, .between low high) := by
  have notBegins : beginsText.isPrefixOf (lower (stripped part)) = false := by
    rw [Bool.eq_false_iff, ne_eq, List.isPrefixOf_iff_prefix, isStripped, List.append_assoc]
    cases b₁ with
    | nil => exact no_begins noBegins (by decide)
    | cons first blanks => exact no_begins noBegins (blank_begins (one first List.mem_cons_self))
  have quietName : Quiet "BETWEEN".toList (text ++ b₁) := by
    have whole := Quiet.plain .between Words.Blank.nil isName.toPlain (Ends.blank one)
      (Quiet.blank .between one)
    rw [List.nil_append] at whole
    exact whole
  have quietLow : Quiet "AND".toList (b₂ ++ (first ++ b₃)) :=
    Quiet.plain .and two plainFirst (Ends.blank three) (Quiet.blank .and three)
  have foundBetween := keyword_at isBetween quietName
    ((b₂ ++ (first ++ b₃)) ++ ' ' :: (and ++ ' ' :: (b₄ ++ second)))
  have foundAnd := keyword_at isAnd quietLow (b₄ ++ second)
  have rest := @drop_keyword (text ++ b₁) _
    ((b₂ ++ (first ++ b₃)) ++ ' ' :: (and ++ ' ' :: (b₄ ++ second))) _ (upper_length isBetween)
  have last := @drop_keyword (b₂ ++ (first ++ b₃)) _ (b₄ ++ second) _ (upper_length isAnd)
  have isBetweenText : betweenText = gap "BETWEEN".toList := rfl
  have isAndText : andText = gap "AND".toList := rfl
  have nine : (text ++ b₁).length + 9 = (text ++ b₁).length + ("BETWEEN".toList.length + 2) := rfl
  have five : (b₂ ++ (first ++ b₃)).length + 5 = (b₂ ++ (first ++ b₃)).length + ("AND".toList.length + 2) :=
    rfl
  have name' := resolveToken_plain Words.Blank.nil one isName
  have low' := resolveValue_plain two three plainFirst isLow
  have high' := resolveValue_plain four Words.Blank.nil plainSecond isHigh
  rw [List.nil_append] at name'
  rw [List.append_nil] at high'
  unfold parseCondition
  dsimp only
  rw [notBegins, if_neg Bool.false_ne_true, isStripped]
  rw [isBetweenText, foundBetween]
  dsimp only
  rw [nine, rest]
  rw [isAndText, foundAnd]
  dsimp only
  rw [five, last, List.take_left, List.take_left, low', high', name']
  rfl

theorem parse_begins {start : Json} {word text token b₁ b₂ b₃ b₄ b₅ part : List Char}
    (isName : NameToken names text name) (isBegins : lower word = beginsText) (plain : Plain token)
    (isStart : ValueText values token start) (one : Words.Blank b₁) (two : Words.Blank b₂)
    (three : Words.Blank b₃) (four : Words.Blank b₄) (five : Words.Blank b₅)
    (isStripped : stripped part = word ++ (b₁ ++ '(' :: (b₂ ++ (text ++ (b₃ ++ ',' :: (b₄ ++ (token ++
      (b₅ ++ [')'])))))))) :
    parseCondition part names values = .ok (name, .beginsWith start) := by
  have begins : beginsText.isPrefixOf (lower (stripped part)) = true := by
    rw [List.isPrefixOf_iff_prefix, isStripped]
    unfold lower at isBegins ⊢
    rw [List.map_append, isBegins]
    exact List.prefix_append _ _
  have noParen : '(' ∉ word ++ b₁ := by
    intro member
    rcases List.mem_append.mp member with inWord | inBlanks
    · have lowered : Char.toLower '(' ∈ beginsText := by
        rw [← isBegins]
        exact List.mem_map_of_mem inWord
      exact absurd lowered (by decide)
    · exact blank_unmarked one (by decide) inBlanks
  have noComma : ',' ∉ b₂ ++ (text ++ b₃) := by
    simp only [List.mem_append, not_or]
    exact ⟨blank_unmarked two (by decide), isName.toPlain.unmarked (by decide),
      blank_unmarked three (by decide)⟩
  have inside : insideParens (stripped part) =
      some ((b₂ ++ (text ++ b₃)) ++ ',' :: (b₄ ++ (token ++ b₅))) := by
    have shape : stripped part = (word ++ b₁) ++ '(' ::
        (((b₂ ++ (text ++ b₃)) ++ ',' :: (b₄ ++ (token ++ b₅))) ++ [')']) := by
      rw [isStripped]
      simp only [List.append_assoc, List.cons_append]
    rw [shape, insideParens, splitOnceAt_append noParen]
    show (rsplitOnceAt ')' (((b₂ ++ (text ++ b₃)) ++ ',' :: (b₄ ++ (token ++ b₅))) ++ [')'])).bind _ = _
    rw [rsplitOnceAt_append List.not_mem_nil]
    rfl
  have name' := resolveToken_plain two three isName
  have start' := resolveValue_plain four five plain isStart
  unfold parseCondition
  dsimp only
  rw [begins, if_pos rfl, inside, Option.bind_some, splitOnceAt_append noComma]
  dsimp only
  rw [start', name']
  rfl

end Parsed

end One

variable {names values : Json} {hash name : String} {cond : SortCond}

/-! ### What is written is accepted: one part -/

theorem trimChars_idem (text : List Char) : trimChars (trimChars text) = trimChars text := by
  obtain ⟨before, after, one, two, whole⟩ := trimBy_spec (p := isWhitespace) text
  have again := trimBy_around one two (trimBy isWhitespace text)
  rw [← whole] at again
  exact again.symm

theorem trimChars_length (text : List Char) : (trimChars text).length ≤ text.length := by
  obtain ⟨before, after, one, two, whole⟩ := trimBy_spec (p := isWhitespace) text
  have lengths := congrArg List.length whole
  rw [List.length_append, List.length_append] at lengths
  show (trimBy isWhitespace text).length ≤ _
  omega

theorem solid_between {first last : List Char} (middle : List Char) (one : Solid first) (two : Solid last)
    (some' : first ≠ []) (more : last ≠ []) : Solid (first ++ (middle ++ last)) := by
  constructor
  · intro char here
    rw [List.head?_append_of_ne_nil _ some'] at here
    exact one.1 char here
  · intro char here
    rw [← List.append_assoc, List.getLast?_append_of_ne_nil _ more] at here
    exact two.2 char here

theorem begins_head {word : List Char} (isBegins : lower word = beginsText) : ∃ first rest,
    word = first :: rest ∧ isWhitespace first = false ∧ first ≠ '(' := by
  cases word with
  | nil => cases isBegins
  | cons first rest =>
    have head : first.toLower = 'b' := (List.cons.inj isBegins).1
    have letter : first = 'b' ∨ first = 'B' := by
      unfold Char.toLower at head
      split at head
      · rename_i upperCase
        right
        have shifted : first.val + 32 = 'B'.val + 32 := congrArg Char.val head
        exact Char.ext ((UInt32.add_left_inj 32).mp shifted)
      · exact .inl head
    rcases letter with rfl | rfl
    · exact ⟨_, rest, rfl, by decide, by decide⟩
    · exact ⟨_, rest, rfl, by decide, by decide⟩

/-- A condition has no blanks around it, and begins with no parenthesis. -/
theorem core_solid {p : List Char} (core : Core (plain names values hash) name cond p) :
    Solid p ∧ p ≠ [] ∧ p.head? ≠ some '(' := by
  have named : ∀ {text rest : List Char}, Plain text →
      text ++ rest ≠ [] ∧ (text ++ rest).head? ≠ some '(' := by
    intro text rest plain
    refine ⟨List.append_ne_nil_of_left_ne_nil plain.filled rest, fun wrong => ?_⟩
    rw [List.head?_append_of_ne_nil _ plain.filled] at wrong
    exact plain.unmarked (by decide) (List.mem_of_mem_head? wrong)
  cases core with
  | @cmp op _ value text blanks more token isOp isName one two isValue =>
    refine ⟨?_, named isName.1.toPlain⟩
    have solid := solid_between (blanks ++ (op.toList ++ more)) isName.1.toPlain.solidBy isValue.1.solidBy
      isName.1.toPlain.filled isValue.1.filled
    simpa only [List.append_assoc] using solid
  | @between _ low high text between first and second b₁ b₂ b₃ b₄ isName _ _ isLow isHigh =>
    refine ⟨?_, named isName.1.toPlain⟩
    have solid := solid_between (b₁ ++ (between ++ (b₂ ++ (first ++ (b₃ ++ (and ++ b₄))))))
      isName.1.toPlain.solidBy isHigh.1.solidBy isName.1.toPlain.filled isHigh.1.filled
    simpa only [List.append_assoc] using solid
  | @beginsWith _ start word text token b₁ b₂ b₃ b₄ b₅ closing isName isBegins isStart one two three four five
      last =>
    obtain rfl : closing = [] := last
    obtain ⟨first, rest, rfl, notBlank, notParen⟩ := begins_head isBegins
    refine ⟨⟨fun char here => ?_, fun char here => ?_⟩, List.cons_ne_nil _ _, fun wrong => ?_⟩
    · obtain rfl := Option.some.inj here
      exact notBlank
    · have last : (first :: rest ++ (b₁ ++ '(' :: (b₂ ++ (text ++ (b₃ ++ ',' :: (b₄ ++ (token ++ (b₅ ++
          [')'])))))))).getLast? = some ')' := by
        have shape : first :: rest ++ (b₁ ++ '(' :: (b₂ ++ (text ++ (b₃ ++ ',' :: (b₄ ++ (token ++ (b₅ ++
            [')']))))))) = (first :: rest ++ (b₁ ++ '(' :: (b₂ ++ (text ++ (b₃ ++ ',' :: (b₄ ++ (token ++
              b₅))))))) ++ [')'] := by
          simp only [List.append_assoc, List.cons_append]
        rw [shape, List.getLast?_concat]
      rw [last] at here
      obtain rfl := Option.some.inj here
      decide
    · exact notParen (Option.some.inj wrong)

/-- **What is around a condition is stripped.** -/
theorem strip_clause {t : List Char} (clause : ClauseText (plain names values hash) name cond t) :
    ∃ p, Core (plain names values hash) name cond p ∧
      ∀ fuel, (trimChars t).length ≤ fuel → stripFrom fuel (trimChars t) = p := by
  induction clause with
  | @core before text after one two core =>
    obtain ⟨solid, some', opens⟩ := core_solid core
    have trimmed : trimChars (before ++ (text ++ after)) = text := trimBy_solid one two solid
    refine ⟨text, core, fun fuel _ => ?_⟩
    rw [trimmed]
    cases fuel with
    | zero => rfl
    | succ fuel =>
      unfold stripFrom
      exact if_neg fun around => opens around.1
  | @parens before text after one two clause ih =>
    obtain ⟨p, core, strips⟩ := ih
    have solid : Solid ('(' :: (text ++ [')'])) := by
      constructor
      · intro char here
        obtain rfl := Option.some.inj here
        decide
      · intro char here
        rw [← List.cons_append, List.getLast?_concat] at here
        obtain rfl := Option.some.inj here
        decide
    have shape : before ++ '(' :: (text ++ ')' :: after) = before ++ (('(' :: (text ++ [')'])) ++ after) := by
      simp only [List.cons_append, List.append_assoc, List.nil_append]
    have trimmed : trimChars (before ++ '(' :: (text ++ ')' :: after)) = '(' :: (text ++ [')']) := by
      rw [shape]
      exact trimBy_solid one two solid
    refine ⟨p, core, fun fuel long => ?_⟩
    rw [trimmed] at long ⊢
    cases fuel with
    | zero => simp at long
    | succ fuel =>
      have closes : ('(' :: (text ++ [')'])).getLast? = some ')' := by
        rw [← List.cons_append, List.getLast?_concat]
      unfold stripFrom
      rw [if_pos ⟨rfl, closes⟩, List.drop_one, List.tail_cons, List.dropLast_concat]
      refine strips fuel (le_trans (trimChars_length text) ?_)
      rw [List.length_cons, List.length_append, List.length_singleton] at long
      omega

/-- **A clause is parsed as its condition.** -/
theorem parse_clause {t : List Char} (clause : ClauseText (plain names values hash) name cond t) :
    parseCondition (trimChars t) names values = .ok (name, cond) := by
  obtain ⟨p, core, strips⟩ := strip_clause clause
  have isStripped : stripped (trimChars t) = p := by
    unfold stripped
    rw [trimChars_idem]
    exact strips _ (le_refl _)
  cases core with
  | @cmp op _ value text blanks more token isOp isName one two isValue =>
    exact parse_cmp isOp isName.1 (isName.2 rfl) one two isValue.1 isValue.2 isStripped
  | @between _ low high text between first and second b₁ b₂ b₃ b₄ isName isBetween isAnd isLow isHigh one two
      three four =>
    obtain ⟨c₁, rfl, one'⟩ := blank_last one.1 one.2
    obtain ⟨c₂, rfl, two'⟩ := blank_first two.1 two.2
    obtain ⟨c₃, rfl, three'⟩ := blank_last three.1 three.2
    obtain ⟨c₄, rfl, four'⟩ := blank_first four.1 four.2
    refine parse_between isName.1 (isName.2 rfl) isBetween isAnd isLow.1 isLow.2 isHigh.1 isHigh.2 one' two'
      three' four' ?_
    rw [isStripped]
    simp only [List.append_assoc, List.cons_append, List.nil_append]
  | @beginsWith _ start word text token b₁ b₂ b₃ b₄ b₅ closing isName isBegins isStart one two three four five
      last =>
    obtain rfl : closing = [] := last
    exact parse_begins isName.1 isBegins isStart.1 isStart.2 one two three four five isStripped

/-! ### What is written is accepted: the parts -/

/-- The only ` AND ` is that of a BETWEEN. -/
def Spread (text : List Char) : Prop :=
  ∃ front and back, text = front ++ ' ' :: (and ++ ' ' :: back) ∧ upper and = "AND".toList ∧
    Quiet "AND".toList front ∧ Quiet "AND".toList back ∧ (findSub betweenText (upper front)).isSome

/-- A text whose ` AND `, if any, is that of a BETWEEN. -/
def Whole (text : List Char) : Prop :=
  (Quiet "AND".toList text ∧ Quiet "BETWEEN".toList text) ∨ Spread text

theorem findSub_some {part text : List Char} (infix' : part <:+: text) : (findSub part text).isSome := by
  cases found : findSub part text with
  | none => exact absurd infix' (findSub_none.mp found)
  | some index => rfl

theorem between_more {front : List Char} (before after : List Char)
    (found : (findSub betweenText (upper front)).isSome) :
    (findSub betweenText (upper (before ++ (front ++ after)))).isSome := by
  refine findSub_some ?_
  have inside : betweenText <:+: upper front := by
    by_contra absent
    rw [findSub_none.mpr absent] at found
    cases found
  rw [upper_append, upper_append]
  exact inside.trans ⟨upper before, upper after, List.append_assoc _ _ _⟩

theorem Whole.parens {before text after : List Char} (one : Words.Blank before) (two : Words.Blank after)
    (whole : Whole text) : Whole (before ++ '(' :: (text ++ ')' :: after)) := by
  have opens : '(' ∈ marks := by decide
  have closes : ')' ∈ marks := by decide
  rcases whole with ⟨and, between⟩ | ⟨front, and, back, rfl, isAnd, quietFront, quietBack, found⟩
  · refine .inl ⟨?_, ?_⟩
    · exact Quiet.mark .and opens (Quiet.blank .and one) (Quiet.mark .and closes and (Quiet.blank .and two))
    · exact Quiet.mark .between opens (Quiet.blank .between one)
        (Quiet.mark .between closes between (Quiet.blank .between two))
  · refine .inr ⟨before ++ '(' :: front, and, back ++ ')' :: after, ?_, isAnd,
      Quiet.mark .and opens (Quiet.blank .and one) quietFront,
      Quiet.mark .and closes quietBack (Quiet.blank .and two), ?_⟩
    · simp only [List.append_assoc, List.cons_append]
    · have more := between_more (before ++ ['(']) [] found
      rw [List.append_nil, List.append_assoc, List.singleton_append] at more
      exact more

theorem whole_clause {t : List Char} (clause : ClauseText (plain names values hash) name cond t) :
    Whole t := by
  induction clause with
  | @core before text after zero last core =>
    cases core with
    | @cmp op _ value text blanks more token isOp isName one two isValue =>
      exact .inl ⟨quiet_cmp .and isOp zero isName.1.toPlain one two isValue.1 last,
        quiet_cmp .between isOp zero isName.1.toPlain one two isValue.1 last⟩
    | @between _ low high text between first and second b₁ b₂ b₃ b₄ isName isBetween isAnd isLow isHigh one two
        three four =>
      obtain ⟨c₁, rfl, one'⟩ := blank_last one.1 one.2
      obtain ⟨c₂, rfl, two'⟩ := blank_first two.1 two.2
      obtain ⟨c₃, rfl, three'⟩ := blank_last three.1 three.2
      obtain ⟨c₄, rfl, four'⟩ := blank_first four.1 four.2
      have spaced : Words.Blank (c₁ ++ [' ']) := one'.append Words.Blank.space
      have more : Words.Blank (' ' :: c₂) := Words.Blank.space.append two'
      have unspaced : ' ' ∉ upper between := by
        rw [isBetween]
        decide
      have other : "AND".toList ≠ upper between := by
        rw [isBetween]
        decide
      -- The name, BETWEEN and the lower bound, one after the other.
      have front : Quiet "AND".toList (before ++ (text ++ ((c₁ ++ [' ']) ++ (between ++ ((' ' :: c₂) ++
          (first ++ c₃)))))) := by
        refine Quiet.plain .and zero isName.1.toPlain (Ends.more spaced (List.append_ne_nil_of_right_ne_nil _
          (List.cons_ne_nil _ _))) ?_
        refine Quiet.token .and spaced unspaced other (Ends.more more (List.cons_ne_nil _ _)) ?_
        exact Quiet.plain .and more isLow.1 (Ends.blank three') (Quiet.blank .and three')
      have back : Quiet "AND".toList (c₄ ++ (second ++ after)) :=
        Quiet.plain .and four' isHigh.1 (Ends.blank last) (Quiet.blank .and last)
      refine .inr ⟨_, and, _, ?_, isAnd, front, back, ?_⟩
      · simp only [List.append_assoc, List.cons_append, List.nil_append]
      · refine findSub_some ⟨upper (before ++ (text ++ c₁)), upper (c₂ ++ (first ++ c₃)), ?_⟩
        have spaceUp : Char.toUpper ' ' = ' ' := by decide
        unfold upper at isBetween ⊢
        simp only [betweenText, gap, List.map_append, List.map_cons, spaceUp, isBetween,
          List.append_assoc, List.cons_append, List.nil_append]
    | @beginsWith _ start word text token b₁ b₂ b₃ b₄ b₅ closing isName isBegins isStart one two three four
        five closed =>
      obtain rfl : closing = [] := closed
      have quiet : ∀ {keyword}, Keyword keyword → ' ' ∉ upper word → keyword ≠ upper word →
          Quiet keyword (before ++ ((word ++ (b₁ ++ '(' :: (b₂ ++ (text ++ (b₃ ++ ',' :: (b₄ ++ (token ++ (b₅ ++
            [')'])))))))) ++ after)) := by
        intro keyword isKeyword unspaced other
        have called : Quiet keyword (before ++ (word ++ b₁)) :=
          Quiet.token isKeyword zero unspaced other (Ends.blank one) (Quiet.blank isKeyword one)
        have key : Quiet keyword (b₂ ++ (text ++ b₃)) :=
          Quiet.plain isKeyword two isName.1.toPlain (Ends.blank three) (Quiet.blank isKeyword three)
        have value : Quiet keyword (b₄ ++ (token ++ b₅)) :=
          Quiet.plain isKeyword four isStart.1 (Ends.blank five) (Quiet.blank isKeyword five)
        have whole := Quiet.mark isKeyword (show '(' ∈ marks by decide) called
          (Quiet.mark isKeyword (show ',' ∈ marks by decide) key
            (Quiet.mark isKeyword (show ')' ∈ marks by decide) value (Quiet.blank isKeyword last)))
        simpa only [List.append_assoc, List.cons_append, List.nil_append] using whole
      have unspaced : ' ' ∉ upper word := by
        intro member
        obtain ⟨char, inside, same⟩ := List.mem_map.mp member
        have lowered : Char.toLower ' ' ∈ beginsText := by
          rw [← isBegins, ← toUpper_mark (by decide) same]
          exact List.mem_map_of_mem inside
        exact absurd lowered (by decide)
      have size : (upper word).length = 11 := by
        have same := congrArg List.length isBegins
        rw [lower, List.length_map] at same
        rw [upper, List.length_map, same]
        rfl
      have other : ∀ {keyword}, Keyword keyword → keyword ≠ upper word := by
        rintro _ ⟨⟩ same
        · rw [← same] at size
          exact absurd size (by decide)
        · rw [← same] at size
          exact absurd size (by decide)
      exact .inl ⟨quiet .and unspaced (other .and), quiet .between unspaced (other .between)⟩
  | @parens before text after one two clause ih => exact ih.parens one two

end CloudTwin.Dynamodb
