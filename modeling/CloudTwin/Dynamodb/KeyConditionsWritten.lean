/-
**Key conditions are accepted exactly by their grammar**, where they are written in words with spaces next
to the keywords, and the parser takes nothing else for a condition.

* `splitAndFrom_two` — two clauses are split at the AND between them.
* `Fair`, `parse_written`, `accepted_iff_written` — what is accepted is what is written.
* `Fair.of_words`, `Fair.of_single` — requests of words, and of one equality.
* `second_condition_accepted` — a table without range key that takes a second condition.
-/

import CloudTwin.Dynamodb.KeyConditionClauses

namespace CloudTwin.Dynamodb

open Lib Lib.Text Lib.Words

variable {names values : Json}

/-! ### What is written is accepted: the expression -/

theorem splitAndFrom_quiet {rest : List Char} (quiet : Quiet "AND".toList rest) (fuel : Nat)
    (passed : List Char) (pending : Bool) :
    splitAndFrom fuel passed pending rest = [trimChars (passed ++ rest)] := by
  cases fuel with
  | zero => rfl
  | succ fuel =>
    have none' : findSub andText (upper rest) = none := keyword_absent quiet
    rw [splitAndFrom, none']

theorem splitAndFrom_step {before and : List Char} (quiet : Quiet "AND".toList before)
    (isAnd : upper and = "AND".toList) (fuel : Nat) (passed after : List Char) (pending : Bool) :
    splitAndFrom (fuel + 1) passed pending (before ++ ' ' :: (and ++ ' ' :: after)) =
      if (findSub betweenText (upper (passed ++ before))).isSome && !pending then
        splitAndFrom fuel (passed ++ (before ++ ' ' :: (and ++ [' ']))) true after
      else trimChars (passed ++ before) :: splitAndFrom fuel [] false after := by
  have found : findSub andText (upper (before ++ ' ' :: (and ++ ' ' :: after))) = some before.length :=
    keyword_at isAnd quiet after
  have size : before.length + 5 = before.length + ("AND".toList.length + 2) := rfl
  have dropped : (before ++ ' ' :: (and ++ ' ' :: after)).drop (before.length + 5) = after := by
    rw [size]
    exact drop_keyword (upper_length isAnd)
  have taken : (before ++ ' ' :: (and ++ ' ' :: after)).take (before.length + 5) =
      before ++ ' ' :: (and ++ [' ']) := by
    have shape : before ++ ' ' :: (and ++ ' ' :: after) = (before ++ ' ' :: (and ++ [' '])) ++ after := by
      simp only [List.append_assoc, List.cons_append, List.nil_append]
    rw [shape]
    refine List.take_left' ?_
    have three := upper_length isAnd
    have isThree : "AND".toList.length = 3 := rfl
    simp only [List.length_append, List.length_cons, List.length_nil]
    omega
  rw [splitAndFrom, found]
  dsimp only
  rw [List.take_left, dropped, taken]

theorem splitAndFrom_whole {text : List Char} (whole : Whole text) (fuel : Nat) :
    splitAndFrom (fuel + 1) [] false text = [trimChars text] := by
  rcases whole with ⟨quiet, -⟩ | ⟨front, and, back, rfl, isAnd, quietFront, quietBack, found⟩
  · exact splitAndFrom_quiet quiet (fuel + 1) [] false
  · rw [splitAndFrom_step quietFront isAnd, List.nil_append, List.nil_append, found]
    rw [if_pos (by decide), splitAndFrom_quiet quietBack]
    simp only [List.append_assoc, List.cons_append, List.nil_append]

/-- **Two conditions are split** at the AND between them. -/
theorem splitAndFrom_two {first and second : List Char} (one : Whole first) (two : Whole second)
    (isAnd : upper and = "AND".toList) (fuel : Nat) :
    splitAndFrom (fuel + 3) [] false (first ++ ' ' :: (and ++ ' ' :: second)) =
      [trimChars first, trimChars second] := by
  rcases one with ⟨quiet, between⟩ | ⟨front, inner, back, rfl, isInner, quietFront, quietBack, found⟩
  · have absent : findSub betweenText (upper first) = none := keyword_absent between
    rw [splitAndFrom_step quiet isAnd, List.nil_append, absent, if_neg (by decide),
      splitAndFrom_whole two]
  · have shape : front ++ ' ' :: (inner ++ ' ' :: back) ++ ' ' :: (and ++ ' ' :: second) =
        front ++ ' ' :: (inner ++ ' ' :: (back ++ ' ' :: (and ++ ' ' :: second))) := by
      simp only [List.append_assoc, List.cons_append]
    rw [shape, splitAndFrom_step quietFront isInner, List.nil_append, List.nil_append, found,
      if_pos (by decide), splitAndFrom_step quietBack isAnd, Bool.not_true, Bool.and_false,
      if_neg Bool.false_ne_true, splitAndFrom_whole two]
    simp only [List.append_assoc, List.cons_append, List.nil_append]

/-- **What a request has to be for its expression to be read by the grammar.** -/
structure Fair (names values : Json) (hash : String) (range : Option String) (expr : List Char) : Prop where
  /-- Where the grammar derives the expression, it does so in words, with spaces next to the keywords. -/
  plainly : ∀ cond, Written (language names values) hash range cond expr →
    Written (plain names values hash) hash range cond expr
  /-- What the parser takes for one condition or two are conditions. -/
  strictly : (splitAnd expr).length ≤ 2 → ∀ cond, Written (loose names values) hash range cond expr →
    Written (language names values) hash range cond expr

theorem parse_of_parts {expr hash : String} {cond : KeyCondition} {parts : List (List Char)}
    (isSplit : splitAnd expr.toList = parts) (some' : parts ≠ []) (few : parts.length ≤ 2)
    (isHash : cond.pkName = hash)
    (collected : collectConditions names values hash parts none none = .ok (some cond.pkValue, cond.sort)) :
    parse expr names values hash = .ok cond := by
  have bounds : ¬((parts.isEmpty = true) ∨ 2 < parts.length) := by
    rw [List.isEmpty_iff, not_or]
    exact ⟨some', Nat.not_lt.mpr few⟩
  unfold parse
  dsimp only
  rw [isSplit, if_neg bounds, collected]
  obtain ⟨pkName, pkValue, sort⟩ := cond
  obtain rfl : pkName = hash := isHash
  rfl

theorem parse_written {expr hash : String} {range : Option String} {cond : KeyCondition}
    (written : Written (plain names values hash) hash range cond expr.toList) :
    parse expr names values hash = .ok cond := by
  have long : ∀ {first and second : List Char}, upper and = "AND".toList →
      expr.toList = first ++ ' ' :: (and ++ ' ' :: second) → ∃ fuel, expr.toList.length + 1 = fuel + 3 := by
    intro first and second isAnd same
    have three := upper_length isAnd
    have isThree : "AND".toList.length = 3 := rfl
    refine ⟨expr.toList.length - 2, ?_⟩
    rw [same]
    simp only [List.length_append, List.length_cons]
    omega
  have isHashValue : ∀ value, hashValue hash hash (.cmp "=" value) = some value :=
    fun value => hashValue_some.mpr ⟨rfl, rfl⟩
  generalize same : expr.toList = text at written
  cases written with
  | @alone value _ isHash =>
    have split : splitAnd expr.toList = [trimChars text] := by
      rw [same]
      exact splitAndFrom_whole (whole_clause isHash) _
    refine parse_of_parts split (List.cons_ne_nil _ _) (by simp) rfl ?_
    rw [collect_cons (parse_clause isHash), isHashValue]
    rfl
  | @hashFirst value rangeKey cond first and second b₁ b₂ isHash keyed isRange isAnd one two =>
    obtain rfl : b₁ = ' ' := one
    obtain rfl : b₂ = ' ' := two
    obtain ⟨fuel, enough⟩ := long isAnd same
    have split : splitAnd expr.toList = [trimChars first, trimChars second] := by
      unfold splitAnd
      rw [enough, same]
      exact splitAndFrom_two (whole_clause isHash) (whole_clause isRange) isAnd fuel
    refine parse_of_parts split (List.cons_ne_nil _ _) (by simp) rfl ?_
    rw [collect_cons (parse_clause isHash), isHashValue]
    dsimp only
    rw [collect_cons (parse_clause isRange)]
    split <;> first | rfl | contradiction
  | @rangeFirst value rangeKey cond first and second b₁ b₂ isRange keyed leads isHash isAnd one two =>
    obtain rfl : b₁ = ' ' := one
    obtain rfl : b₂ = ' ' := two
    obtain ⟨fuel, enough⟩ := long isAnd same
    have split : splitAnd expr.toList = [trimChars first, trimChars second] := by
      unfold splitAnd
      rw [enough, same]
      exact splitAndFrom_two (whole_clause isRange) (whole_clause isHash) isAnd fuel
    have leads : hashValue hash rangeKey cond = none := leads
    refine parse_of_parts split (List.cons_ne_nil _ _) (by simp) rfl ?_
    rw [collect_cons (parse_clause isRange), leads]
    dsimp only
    rw [collect_cons (parse_clause isHash), isHashValue]
    rfl

/-- The sort condition of the grammar is on the range key. -/
theorem written_supported {hash : String} {range : Option String} {cond : KeyCondition} {text : List Char}
    (written : Written (language names values) hash range cond text) :
    ((cond.sort.map Prod.fst).any fun sk => range.any fun range => sk != range) = false := by
  cases written with
  | alone => rfl
  | hashFirst _ keyed =>
    obtain rfl : range = some _ := keyed
    exact bne_self_eq_false _
  | rangeFirst _ keyed =>
    obtain rfl : range = some _ := keyed
    exact bne_self_eq_false _

/-- A grammar with more to each of its pieces derives more. -/
structure Lexicon.Within (lex more : Lexicon) (hash : String) (range : Option String) (text : List Char) :
    Prop where
  names : ∀ key cond token, key = hash ∨ lex.keyed range key → lex.name cond token key →
    more.name cond token key
  values : ∀ token value, lex.value token value → more.value token value
  before : ∀ blanks, (∀ char ∈ blanks, char ∈ text) → lex.before blanks → more.before blanks
  after : ∀ blanks, (∀ char ∈ blanks, char ∈ text) → lex.after blanks → more.after blanks
  parens : '(' ∈ text → ∀ rest, (lex.opening rest → more.opening rest) ∧ (lex.closing rest → more.closing rest)
  join : ∀ char ∈ text, lex.join char → more.join char
  keyed : ∀ key, lex.keyed range key → more.keyed range key
  leads : ∀ key cond, lex.keyed range key → lex.leads key cond → more.leads key cond

section Within

variable {lex more : Lexicon} {hash name : String} {range : Option String} {cond : SortCond}
  {whole : List Char}

theorem Core.within (within : lex.Within more hash range whole) (known : name = hash ∨ lex.keyed range name)
    {text : List Char} (inside : ∀ char ∈ text, char ∈ whole) (core : Core lex name cond text) :
    Core more name cond text := by
  cases core with
  | cmp isOp isName one two isValue =>
    exact .cmp isOp (within.names _ _ _ known isName) one two (within.values _ _ isValue)
  | between isName isBetween isAnd isLow isHigh one two three four =>
    exact .between (within.names _ _ _ known isName) isBetween isAnd (within.values _ _ isLow)
      (within.values _ _ isHigh)
      (within.before _ (fun char member => inside char (by simp [member])) one)
      (within.after _ (fun char member => inside char (by simp [member])) two)
      (within.before _ (fun char member => inside char (by simp [member])) three)
      (within.after _ (fun char member => inside char (by simp [member])) four)
  | beginsWith isName isBegins isStart one two three four five last =>
    have opens := inside '(' (by simp)
    exact .beginsWith (within.names _ _ _ known isName) isBegins (within.values _ _ isStart)
      ((within.parens opens _).1 one) two three four five ((within.parens opens _).2 last)

theorem ClauseText.within (within : lex.Within more hash range whole)
    (known : name = hash ∨ lex.keyed range name) {text : List Char}
    (clause : ClauseText lex name cond text) : (∀ char ∈ text, char ∈ whole) →
      ClauseText more name cond text := by
  induction clause with
  | core one two core =>
    intro inside
    exact .core one two (core.within within known fun char member => inside char (by simp [member]))
  | parens one two clause ih =>
    intro inside
    exact .parens one two (ih fun char member => inside char (by simp [member]))

theorem Written.within {cond : KeyCondition} (within : lex.Within more hash range whole)
    (written : Written lex hash range cond whole) : Written more hash range cond whole := by
  cases written with
  | alone isHash => exact .alone (isHash.within within (.inl rfl) fun _ member => member)
  | hashFirst isHash keyed isRange isAnd one two =>
    exact .hashFirst (isHash.within within (.inl rfl) fun char member => by simp [member])
      (within.keyed _ keyed) (isRange.within within (.inr keyed) fun char member => by simp [member]) isAnd
      (within.join _ (by simp) one) (within.join _ (by simp) two)
  | rangeFirst isRange keyed leads isHash isAnd one two =>
    exact .rangeFirst (isRange.within within (.inr keyed) fun char member => by simp [member])
      (within.keyed _ keyed) (within.leads _ _ keyed leads)
      (isHash.within within (.inl rfl) fun char member => by simp [member]) isAnd
      (within.join _ (by simp) one) (within.join _ (by simp) two)

end Within

theorem hashValue_range {hash rangeKey : String} (apart : rangeKey ≠ hash) (cond : SortCond) :
    hashValue hash rangeKey cond = none := by
  cases found : hashValue hash rangeKey cond with
  | none => rfl
  | some value => exact absurd (hashValue_some.mp found).1 apart

/-- **What the names and values of a request may be**: words. -/
structure Worded (names values : Json) (name : String) : Prop where
  names : ∀ text, NameText names text name → NameToken names text name ∧ ¬beginsText <+: lower text
  values : ∀ token value, ValueText values token value → Plain token

/-- **A request of words** on a table with two keys, with spaces for blanks. -/
theorem Fair.of_words {hash key : String} {expr : List Char} (hashWords : Worded names values hash)
    (rangeWords : Worded names values key) (apart : key ≠ hash)
    (tidy : ∀ char ∈ expr, isWhitespace char = true → char = ' ') (simple : '(' ∉ expr) :
    Fair names values hash (some key) expr where
  plainly cond written := by
    have within : (language names values).Within (plain names values hash) hash (some key) expr := by
      refine ⟨fun name cond token known isName => ?_, fun token value isValue =>
        ⟨hashWords.values token value isValue, isValue⟩, fun blanks inside blank => ⟨blank.1, ?_⟩,
        fun blanks inside blank => ⟨blank.1, ?_⟩, fun opens => absurd opens simple,
        fun char member => tidy char member, fun _ keyed => keyed, fun name cond keyed _ => ?_⟩
      · have worded : Worded names values name := by
          rcases known with rfl | keyed
          · exact hashWords
          · obtain rfl := Option.some.inj keyed
            exact rangeWords
        exact ⟨(worded.names token isName).1, fun _ => (worded.names token isName).2⟩
      · rcases blanks.eq_nil_or_concat with rfl | ⟨rest, last, rfl⟩
        · exact absurd rfl blank.2
        · rw [List.concat_eq_append] at inside blank ⊢
          have there : last ∈ rest ++ [last] := List.mem_append_right _ List.mem_cons_self
          rw [List.getLast?_concat, tidy last (inside last there) (blank.1 last there)]
      · cases blanks with
        | nil => exact absurd rfl blank.2
        | cons first rest =>
          have there : first ∈ first :: rest := List.mem_cons_self
          rw [List.head?_cons, tidy first (inside first there) (blank.1 first there)]
      · obtain rfl := Option.some.inj keyed
        exact hashValue_range apart cond
    exact written.within within
  strictly _ cond written := by
    have within : (loose names values).Within (language names values) hash (some key) expr := by
      refine ⟨fun _ _ _ _ isName => isName.1, fun _ _ isValue => isValue,
        fun _ _ blank => ⟨blank.1, ?_⟩, fun _ _ blank => ⟨blank.1, ?_⟩, fun opens => absurd opens simple,
        fun char _ space => ?_, fun name keyed => ?_, fun _ _ _ _ => trivial⟩
      · rintro rfl
        cases blank.2
      · rintro rfl
        cases blank.2
      · obtain rfl : char = ' ' := space
        exact (by decide : isWhitespace ' ' = true)
      · exact congrArg some (keyed key rfl).symm
    exact written.within within

/-- A comparison asks for its name and its value only. -/
theorem ClauseText.compared {lex more : Lexicon} {name op : String} {value : Json} {text : List Char}
    (isName : ∀ text, lex.name (.cmp op value) text name → more.name (.cmp op value) text name)
    (isValue : ∀ token, lex.value token value → more.value token value)
    (clause : ClauseText lex name (.cmp op value) text) : ClauseText more name (.cmp op value) text := by
  induction clause with
  | core one two core =>
    cases core with
    | cmp isOp named three four given =>
      exact .core one two (.cmp isOp (isName _ named) three four (isValue _ given))
  | parens one two _ ih => exact .parens one two ih

/-- **A request of one equality**, with any blanks: a text without an A joins no conditions. -/
theorem Fair.of_single {hash : String} {range : Option String} {expr : List Char}
    (hashWords : Worded names values hash) (single : 'A' ∉ upper expr) :
    Fair names values hash range expr := by
  have unjoined : ∀ {first and second : List Char} {b₁ b₂ : Char}, upper and = "AND".toList →
      'A' ∈ upper (first ++ b₁ :: (and ++ b₂ :: second)) := by
    intro first and second b₁ b₂ isAnd
    have inside : 'A' ∈ upper and := by
      rw [isAnd]
      decide
    rw [upper_append]
    refine List.mem_append_right _ (List.mem_cons_of_mem _ ?_)
    show 'A' ∈ upper (and ++ b₂ :: second)
    rw [upper_append]
    exact List.mem_append_left _ inside
  have alone : ∀ {lex more : Lexicon} {cond : KeyCondition},
      (∀ value text, lex.name (.cmp "=" value) text hash → more.name (.cmp "=" value) text hash) →
      (∀ value token, lex.value token value → more.value token value) →
      Written lex hash range cond expr → Written more hash range cond expr := by
    intro lex more cond isName isValue written
    cases written with
    | alone isHash => exact .alone (isHash.compared (isName _) (isValue _))
    | hashFirst _ _ _ isAnd => exact absurd (unjoined isAnd) single
    | rangeFirst _ _ _ _ isAnd => exact absurd (unjoined isAnd) single
  refine ⟨fun cond => alone (fun value text isName => ?_) fun value token isValue =>
    ⟨hashWords.values token value isValue, isValue⟩, fun _ cond => alone (fun _ _ isName => isName.1)
    fun _ _ isValue => isValue⟩
  have worded := hashWords.names text isName
  exact ⟨worded.1, fun _ => worded.2⟩

/-! ### Samples -/

/-- A table without range key has no second condition in the grammar. -/
theorem written_unranged {hash : String} {cond : KeyCondition} {text : List Char}
    (written : Written (language names values) hash none cond text) : cond.sort = none := by
  cases written with
  | alone => rfl
  | hashFirst _ keyed => exact absurd keyed (Option.some_ne_none _).symm
  | rangeFirst _ keyed => exact absurd keyed (Option.some_ne_none _).symm

theorem plain_of_all {token : List Char} (filled : token ≠ [])
    (solid : (token.all fun char => !isWhitespace char && !marks.contains char) = true)
    (notAnd : upper token ≠ "AND".toList) (notBetween : upper token ≠ "BETWEEN".toList) : Plain token := by
  refine ⟨filled, fun char member => ?_, notAnd, notBetween⟩
  have here := List.all_eq_true.mp solid char member
  rw [Bool.and_eq_true, Bool.not_eq_true', Bool.not_eq_true'] at here
  refine ⟨here.1, fun marked => ?_⟩
  rw [List.contains_iff_mem.mpr marked] at here
  exact absurd here.2 (by decide)

theorem plain_members {members : List (String × Json)} (plain : ∀ member ∈ members, Plain member.1.toList) :
    ∀ token value, ValueText (.obj members) token value → Plain token := by
  intro token value isValue
  have found : members.lookup (String.ofList token) = some value := isValue
  clear isValue
  induction members with
  | nil => cases found
  | cons member rest ih =>
    obtain ⟨key, held⟩ := member
    rw [List.lookup_cons] at found
    split at found
    · rename_i same
      have here := plain (key, held) List.mem_cons_self
      rw [← beq_iff_eq.mp same, String.toList_ofList] at here
      exact here
    · exact ih (fun other inside => plain other (List.mem_cons_of_mem _ inside)) found

theorem nameToken_own {name : String} (plain : Plain name.toList) (noBegins : ¬beginsText <+: lower name.toList)
    (noHash : name.toList.head? ≠ some '#') : ∀ text, NameText (.obj []) text name →
      NameToken (.obj []) text name ∧ ¬beginsText <+: lower text := by
  intro text isName
  cases isName with
  | own =>
    refine ⟨⟨plain, ?_⟩, noBegins⟩
    rw [resolveToken_eq, if_neg noHash, String.ofList_toList]
  | placeholder _ given => cases given

def sampleValues : Json := .obj [(":p", .str "a"), (":q", .str "b")]

theorem plain_sample : ∀ token value, ValueText sampleValues token value → Plain token := by
  refine plain_members fun member inside => ?_
  simp only [List.mem_cons, List.not_mem_nil, or_false] at inside
  rcases inside with rfl | rfl
  · exact plain_of_all (by decide) (by decide) (by decide) (by decide)
  · exact plain_of_all (by decide) (by decide) (by decide) (by decide)

theorem worded_sample {name : String} (sample : name = "pk" ∨ name = "sk") :
    Worded (.obj []) sampleValues name := by
  rcases sample with rfl | rfl
  · exact ⟨nameToken_own (plain_of_all (by decide) (by decide) (by decide) (by decide)) (by decide)
      (by decide), plain_sample⟩
  · exact ⟨nameToken_own (plain_of_all (by decide) (by decide) (by decide) (by decide)) (by decide)
      (by decide), plain_sample⟩

example : Fair (.obj []) sampleValues "pk" none "pk\t= :p\n".toList :=
  Fair.of_single (worded_sample (.inl rfl)) (by decide)

end CloudTwin.Dynamodb
