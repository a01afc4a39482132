/-
**The words of a key condition.**

The searches of the parser find a keyword between two spaces only, and an operator anywhere. In a text
of plain words, spaces and marks they find what was written there.

* `Plain`, `Quiet` — a word, and a text without a keyword.
* `keyword_at`, `keyword_absent` — what a search for a keyword finds.
* `NameToken`, `parseComparison_cmp` — the operator that is found is the one that is written.
-/

import CloudTwin.Dynamodb.KeyConditionsRead

namespace CloudTwin.Dynamodb

open Lib Lib.Text Lib.Words

variable {names values : Json}

/-! ### What is written is accepted: words and blanks -/

def marks : List Char := "(),<=>".toList

/-- A text that the searches of the parser take for nothing else. -/
structure Plain (token : List Char) : Prop where
  filled : token ≠ []
  solid : ∀ char ∈ token, isWhitespace char = false ∧ char ∉ marks
  notAnd : upper token ≠ "AND".toList
  notBetween : upper token ≠ "BETWEEN".toList

def Spaces (blanks : List Char) : Prop := ∀ char ∈ blanks, char = ' '

theorem upper_append (first second : List Char) : upper (first ++ second) = upper first ++ upper second :=
  List.map_append

theorem upper_spaces {blanks : List Char} (spaces : Spaces blanks) : upper blanks = blanks := by
  unfold upper
  calc blanks.map Char.toUpper = blanks.map id := List.map_congr_left fun char member => by
        rw [spaces char member]
        decide
    _ = blanks := List.map_id _

theorem Spaces.upper {blanks : List Char} (spaces : Spaces blanks) :
    ∀ char ∈ upper blanks, char = ' ' := by
  rw [upper_spaces spaces]
  exact spaces

theorem Spaces.nil : Spaces [] := fun _ wrong => absurd wrong List.not_mem_nil

theorem Spaces.snoc {blanks : List Char} (spaces : Spaces blanks) : Spaces (blanks ++ [' ']) :=
  fun char member => (List.mem_append.mp member).elim (spaces char) List.mem_singleton.mp

theorem Plain.unspaced {token : List Char} (plain : Plain token) : ' ' ∉ upper token := by
  intro member
  obtain ⟨char, inside, same⟩ := List.mem_map.mp member
  have space := toUpper_mark (by decide) same
  exact absurd (space ▸ (plain.solid char inside).1) (by decide)

theorem Plain.solidBy {token : List Char} (plain : Plain token) : Solid token :=
  ⟨fun char here => (plain.solid char (List.mem_of_mem_head? here)).1,
    fun char here => (plain.solid char (List.mem_of_mem_getLast? here)).1⟩

theorem Plain.unmarked {token : List Char} (plain : Plain token) {mark : Char} (isMark : mark ∈ marks) :
    mark ∉ token := fun member => (plain.solid mark member).2 isMark

theorem blank_unmarked {blanks : List Char} (blank : Words.Blank blanks) {mark : Char}
    (isMark : mark ∈ marks) : mark ∉ blanks := by
  intro member
  have solid : (marks.all fun mark => !isWhitespace mark) = true := by decide
  have here := List.all_eq_true.mp solid mark isMark
  rw [blank mark member] at here
  cases here

/-- A letter is no blank. -/
theorem blank_letter {char : Char} (blank : isWhitespace char = true) :
    ¬(65 ≤ char.toNat ∧ char.toNat ≤ 122) := by
  rintro ⟨low, high⟩
  simp only [isWhitespace, Bool.or_eq_true, Bool.and_eq_true, decide_eq_true_eq, beq_iff_eq] at blank
  omega

theorem blank_upper {char : Char} (blank : isWhitespace char = true) : char.toUpper = char := by
  unfold Char.toUpper
  split
  · rename_i letter
    exact absurd ⟨le_trans (by decide) (UInt32.le_iff_toNat_le.mp letter.1),
      UInt32.le_iff_toNat_le.mp letter.2⟩ (blank_letter blank)
  · rfl

theorem blank_begins {char : Char} (blank : isWhitespace char = true) : char.toLower ∉ beginsText := by
  have same : char.toLower = char := by
    unfold Char.toLower
    split
    · rename_i letter
      exact absurd ⟨UInt32.le_iff_toNat_le.mp letter.1,
        le_trans (UInt32.le_iff_toNat_le.mp letter.2) (by decide)⟩ (blank_letter blank)
    · rfl
  rw [same]
  intro member
  have solid : (beginsText.all fun char => !isWhitespace char) = true := by decide
  have here := List.all_eq_true.mp solid char member
  rw [blank] at here
  cases here

/-! ### Keywords -/

inductive Keyword : List Char → Prop
  | and : Keyword "AND".toList
  | between : Keyword "BETWEEN".toList

theorem Keyword.unspaced {word : List Char} (keyword : Keyword word) : ' ' ∉ word := by
  cases keyword <;> decide

theorem Keyword.filled {word : List Char} (keyword : Keyword word) : word ≠ [] := by
  cases keyword <;> decide

theorem Keyword.unmarked {word : List Char} (keyword : Keyword word) {mark : Char}
    (isMark : mark ∈ marks) : mark ∉ gap word := by
  have away : (marks.all fun mark => !(gap word).contains mark) = true := by
    cases keyword
    · decide
    · decide
  have here := List.all_eq_true.mp away mark isMark
  rw [Bool.not_eq_true', ← Bool.not_eq_true, List.contains_iff_mem] at here
  exact here

/-- Of the blanks, only spaces stand around a keyword. -/
theorem Keyword.unblank {word : List Char} (keyword : Keyword word) {char : Char}
    (blank : isWhitespace char = true) (other : char ≠ ' ') : char ∉ gap word := by
  intro member
  have solid : ((gap word).all fun char => !isWhitespace char || char == ' ') = true := by
    cases keyword
    · decide
    · decide
  have here := List.all_eq_true.mp solid char member
  rw [blank] at here
  exact other (beq_iff_eq.mp here)

theorem Plain.other {token word : List Char} (plain : Plain token) (keyword : Keyword word) :
    word ≠ upper token := by
  cases keyword with
  | and => exact fun same => plain.notAnd same.symm
  | between => exact fun same => plain.notBetween same.symm

/-- The keyword does not stand between spaces, whatever its letters. -/
def Quiet (word text : List Char) : Prop := Free word (upper text)

theorem upper_mark {mark : Char} (isMark : mark ∈ marks) : mark.toUpper = mark := by
  have same : (marks.all fun mark => mark.toUpper == mark) = true := by decide
  exact beq_iff_eq.mp (List.all_eq_true.mp same mark isMark)

theorem Quiet.spaces {word blanks : List Char} (keyword : Keyword word) (spaces : Spaces blanks) :
    Quiet word blanks :=
  Free.spaces keyword.unspaced keyword.filled spaces.upper

/-- A text is taken apart at a character that stands in no keyword. -/
theorem Quiet.break {word before after : List Char} {stop : Char} (same : stop.toUpper = stop)
    (absent : stop ∉ gap word) (first : Quiet word before) (second : Quiet word after) :
    Quiet word (before ++ stop :: after) := by
  unfold Quiet
  rw [upper_append]
  show Free word (upper before ++ stop.toUpper :: upper after)
  rw [same]
  exact Free.break absent first second

theorem Quiet.mark {word before after : List Char} {mark : Char} (keyword : Keyword word)
    (isMark : mark ∈ marks) (first : Quiet word before) (second : Quiet word after) :
    Quiet word (before ++ mark :: after) :=
  Quiet.break (upper_mark isMark) (keyword.unmarked isMark) first second

theorem Quiet.pause {word before after : List Char} {char : Char} (keyword : Keyword word)
    (blank : isWhitespace char = true) (other : char ≠ ' ') (first : Quiet word before)
    (second : Quiet word after) : Quiet word (before ++ char :: after) :=
  Quiet.break (blank_upper blank) (keyword.unblank blank other) first second

theorem Quiet.tail {word rest : List Char} {first : Char} (quiet : Quiet word (first :: rest)) :
    Quiet word rest :=
  fun inside => quiet (List.infix_cons inside)

/-- The induction is on the blanks, with the spaces before them: at any other blank the text is taken
apart. -/
theorem Quiet.blank {word : List Char} (keyword : Keyword word) {blanks : List Char}
    (blank : Words.Blank blanks) : Quiet word blanks := by
  have behind : ∀ {blanks spaces : List Char}, Words.Blank blanks → Spaces spaces →
      Quiet word (spaces ++ blanks) := by
    intro blanks
    induction blanks with
    | nil =>
      intro spaces _ isSpaces
      rw [List.append_nil]
      exact Quiet.spaces keyword isSpaces
    | cons first blanks ih =>
      intro spaces blank isSpaces
      have rest : Words.Blank blanks := fun char member => blank char (List.mem_cons_of_mem _ member)
      by_cases isSpace : first = ' '
      · subst isSpace
        have more := ih rest isSpaces.snoc
        rw [List.append_assoc, List.singleton_append] at more
        exact more
      · exact Quiet.pause keyword (blank first List.mem_cons_self) isSpace (Quiet.spaces keyword isSpaces)
          (@ih [] rest Spaces.nil)
  exact @behind blanks [] blank Spaces.nil

/-- Something that begins with a blank, or nothing. -/
def Ends (rest : List Char) : Prop := ∀ char, rest.head? = some char → isWhitespace char = true

theorem Ends.nil : Ends [] := fun _ wrong => by cases wrong

theorem Ends.blank {blanks : List Char} (blank : Words.Blank blanks) : Ends blanks :=
  fun char here => blank char (List.mem_of_mem_head? here)

theorem Ends.more {blanks rest : List Char} (blank : Words.Blank blanks) (some' : blanks ≠ []) :
    Ends (blanks ++ rest) := by
  cases blanks with
  | nil => exact absurd rfl some'
  | cons first blanks =>
    intro char here
    obtain rfl := Option.some.inj here
    exact blank _ List.mem_cons_self

/-- A token that is another word, with spaces before it. -/
theorem Quiet.spaced {word spaces token rest : List Char} (keyword : Keyword word)
    (isSpaces : Spaces spaces) (unspaced : ' ' ∉ upper token) (other : word ≠ upper token)
    (ends : Ends rest) (more : Quiet word rest) : Quiet word (spaces ++ (token ++ rest)) := by
  have peeled : ∀ {rest : List Char}, ((upper rest).head?.all fun char => char = ' ') →
      Quiet word rest → Quiet word (spaces ++ (token ++ rest)) := by
    intro rest begins more
    unfold Quiet
    rw [upper_append, upper_append]
    exact Free.peel keyword.unspaced keyword.filled isSpaces.upper unspaced other begins more
  cases rest with
  | nil => exact peeled rfl more
  | cons first rest =>
    have blank := ends first rfl
    by_cases isSpace : first = ' '
    · subst isSpace
      refine peeled ?_ more
      show decide (Char.toUpper ' ' = ' ') = true
      decide
    · have alone := @peeled [] rfl (Quiet.spaces keyword Spaces.nil)
      have whole := Quiet.pause keyword blank isSpace alone more.tail
      simpa only [List.append_assoc, List.append_nil] using whole

/-- A token that is another word, with blanks before it. -/
theorem Quiet.token {word token rest : List Char} (keyword : Keyword word) {blanks : List Char}
    (blank : Words.Blank blanks) (unspaced : ' ' ∉ upper token) (other : word ≠ upper token)
    (ends : Ends rest) (more : Quiet word rest) : Quiet word (blanks ++ (token ++ rest)) := by
  have behind : ∀ {blanks spaces : List Char}, Words.Blank blanks → Spaces spaces →
      Quiet word (spaces ++ (blanks ++ (token ++ rest))) := by
    intro blanks
    induction blanks with
    | nil =>
      intro spaces _ isSpaces
      rw [List.nil_append]
      exact Quiet.spaced keyword isSpaces unspaced other ends more
    | cons first blanks ih =>
      intro spaces blank isSpaces
      have tail : Words.Blank blanks := fun char member => blank char (List.mem_cons_of_mem _ member)
      by_cases isSpace : first = ' '
      · subst isSpace
        have more := ih tail isSpaces.snoc
        rw [List.append_assoc, List.singleton_append] at more
        exact more
      · exact Quiet.pause keyword (blank first List.mem_cons_self) isSpace (Quiet.spaces keyword isSpaces)
          (@ih [] tail Spaces.nil)
  exact @behind blanks [] blank Spaces.nil

theorem Quiet.plain {word blanks token rest : List Char} (keyword : Keyword word)
    (blank : Words.Blank blanks) (plain : Plain token) (ends : Ends rest) (more : Quiet word rest) :
    Quiet word (blanks ++ (token ++ rest)) :=
  Quiet.token keyword blank plain.unspaced (plain.other keyword) ends more

/-- **A keyword is found where it stands**, when it does not stand before. -/
theorem keyword_at {word written before : List Char}
    (isWord : upper written = word) (quiet : Quiet word before) (after : List Char) :
    findSub (gap word) (upper (before ++ ' ' :: (written ++ ' ' :: after))) = some before.length := by
  have whole : upper (before ++ ' ' :: (written ++ ' ' :: after)) =
      upper before ++ (gap word ++ upper after) := by
    have space : Char.toUpper ' ' = ' ' := by decide
    rw [upper_append]
    unfold gap
    show upper before ++ Char.toUpper ' ' :: upper (written ++ ' ' :: after) = _
    rw [upper_append, isWord]
    show upper before ++ Char.toUpper ' ' :: (word ++ Char.toUpper ' ' :: upper after) = _
    rw [space]
    simp only [List.cons_append, List.append_assoc, List.nil_append]
  have filled : gap word ≠ [] := List.cons_ne_nil _ _
  rw [whole, findSub_first filled (by rw [dropLast_gap]; exact quiet)]
  unfold upper
  rw [List.length_map]

theorem keyword_absent {word text : List Char} (quiet : Quiet word text) :
    findSub (gap word) (upper text) = none :=
  findSub_none.mpr quiet.noWord

/-! ### What is written is accepted: one condition -/

/-- A text for a key name that the parser reads as the name. -/
structure NameToken (names : Json) (text : List Char) (name : String) : Prop extends Plain text where
  resolves : resolveToken text names = name

theorem resolveValue_plain {before token after : List Char} {value : Json} (one : Words.Blank before)
    (two : Words.Blank after) (plain : Plain token) (isValue : ValueText values token value) :
    resolveValue (before ++ (token ++ after)) values = .ok value := by
  have trimmed : trimChars (before ++ (token ++ after)) = token :=
    trimBy_solid one two plain.solidBy
  unfold resolveValue
  rw [trimmed, isValue]

theorem resolveToken_plain {before text after : List Char} {name : String} (one : Words.Blank before)
    (two : Words.Blank after) (token : NameToken names text name) :
    resolveToken (trimChars (before ++ (text ++ after))) names = name := by
  have trimmed : trimChars (before ++ (text ++ after)) = text :=
    trimBy_solid one two token.toPlain.solidBy
  rw [trimmed, token.resolves]

theorem findSub_absent {part text : List Char} {char : Char} (inside : char ∈ part)
    (absent : char ∉ text) : findSub part text = none :=
  findSub_none.mpr fun infix' => absent (infix'.subset inside)

/-- A text that goes on with no letter of `begins_with` is not taken for it. -/
theorem no_begins {text rest : List Char} {next : Char} (noBegins : ¬beginsText <+: lower text)
    (other : next.toLower ∉ beginsText) : ¬beginsText <+: lower (text ++ next :: rest) := by
  intro starts
  have whole : lower (text ++ next :: rest) = (lower text ++ [next.toLower]) ++ lower rest := by
    unfold lower
    rw [List.map_append, List.map_cons, List.append_assoc, List.singleton_append]
  rw [whole] at starts
  by_cases long : beginsText.length ≤ (lower text).length
  · refine noBegins (List.prefix_of_prefix_length_le (starts) ?_ long)
    rw [List.append_assoc]
    exact List.prefix_append _ _
  · have inside := List.prefix_of_prefix_length_le (List.prefix_append (lower text ++ [next.toLower])
      (lower rest)) starts (by rw [List.length_append, List.length_singleton]; omega)
    exact other (inside.subset (List.mem_append_right _ List.mem_cons_self))

section Comparison

variable {name : String} {text blanks more token : List Char}

/-- The earlier operators do not stand in a comparison, and its own stands behind the name. -/
theorem parseComparison_cmp {op : String} {value : Json} (part : List Char) (isOp : op ∈ comparisonOps)
    (isName : NameToken names text name) (one : Words.Blank blanks) (two : Words.Blank more)
    (plain : Plain token) (isValue : ValueText values token value) :
    parseComparison part (text ++ (blanks ++ (op.toList ++ (more ++ token)))) names values
      comparisonOps = .ok (name, .cmp op value) := by
  have absent : ∀ mark ∈ marks, mark ∉ op.toList →
      mark ∉ text ++ (blanks ++ (op.toList ++ (more ++ token))) := by
    intro mark isMark away member
    simp only [List.mem_append] at member
    rcases member with here | here | here | here | here
    · exact isName.toPlain.unmarked isMark here
    · exact blank_unmarked one isMark here
    · exact away here
    · exact blank_unmarked two isMark here
    · exact plain.unmarked isMark here
  have before : ∀ mark ∈ marks, mark ∉ text ++ blanks := by
    intro mark isMark member
    rcases List.mem_append.mp member with here | here
    · exact isName.toPlain.unmarked isMark here
    · exact blank_unmarked one isMark here
  -- The last character of the operator stands nowhere before its end.
  have found : ∀ mark ∈ marks, mark ∈ op.toList → mark ∉ op.toList.dropLast →
      findSub op.toList (text ++ (blanks ++ (op.toList ++ (more ++ token)))) =
        some (text ++ blanks).length := by
    intro mark isMark inside last
    rw [← List.append_assoc]
    refine findSub_first (List.ne_nil_of_mem inside) (fun infix' => ?_) (more ++ token)
    rcases List.mem_append.mp (infix'.subset inside) with here | here
    · exact before mark isMark here
    · exact last here
  have parsed : ∀ ops, findSub op.toList (text ++ (blanks ++ (op.toList ++ (more ++ token)))) =
      some (text ++ blanks).length →
      parseComparison part (text ++ (blanks ++ (op.toList ++ (more ++ token)))) names values
        (op :: ops) = .ok (name, .cmp op value) := by
    intro ops here
    have behind : (text ++ (blanks ++ (op.toList ++ (more ++ token)))).drop
        ((text ++ blanks).length + op.toList.length) = more ++ (token ++ []) := by
      rw [← List.append_assoc, ← List.append_assoc, List.append_nil]
      exact List.drop_left' (by rw [List.length_append])
    have front : (text ++ (blanks ++ (op.toList ++ (more ++ token)))).take (text ++ blanks).length =
        [] ++ (text ++ blanks) := by
      rw [← List.append_assoc]
      exact List.take_left
    unfold parseComparison
    rw [here]
    dsimp only
    rw [behind, front, resolveValue_plain two Words.Blank.nil plain isValue,
      resolveToken_plain Words.Blank.nil one isName]
    rfl
  have skip : ∀ (other : String) (ops : List String),
      findSub other.toList (text ++ (blanks ++ (op.toList ++ (more ++ token)))) = none →
      parseComparison part (text ++ (blanks ++ (op.toList ++ (more ++ token)))) names values (other :: ops) =
        parseComparison part (text ++ (blanks ++ (op.toList ++ (more ++ token)))) names values ops := by
    intro other ops none'
    rw [parseComparison, none']
  unfold comparisonOps at isOp ⊢
  simp only [List.mem_cons, List.not_mem_nil, or_false] at isOp
  have less : '<' ∈ marks := by decide
  have greater : '>' ∈ marks := by decide
  have equal : '=' ∈ marks := by decide
  rcases isOp with rfl | rfl | rfl | rfl | rfl
  · exact parsed _ (found '=' equal (by decide) (by decide))
  · rw [skip "<=" _ (findSub_absent (by decide) (absent '<' less (by decide)))]
    exact parsed _ (found '=' equal (by decide) (by decide))
  · rw [skip "<=" _ (findSub_absent (by decide) (absent '=' equal (by decide))),
      skip ">=" _ (findSub_absent (by decide) (absent '=' equal (by decide)))]
    exact parsed _ (found '<' less (by decide) (by decide))
  · rw [skip "<=" _ (findSub_absent (by decide) (absent '=' equal (by decide))),
      skip ">=" _ (findSub_absent (by decide) (absent '=' equal (by decide))),
      skip "<" _ (findSub_absent (by decide) (absent '<' less (by decide)))]
    exact parsed _ (found '>' greater (by decide) (by decide))
  · rw [skip "<=" _ (findSub_absent (by decide) (absent '<' less (by decide))),
      skip ">=" _ (findSub_absent (by decide) (absent '>' greater (by decide))),
      skip "<" _ (findSub_absent (by decide) (absent '<' less (by decide))),
      skip ">" _ (findSub_absent (by decide) (absent '>' greater (by decide)))]
    exact parsed _ (found '=' equal (by decide) (by decide))

end Comparison

end CloudTwin.Dynamodb
