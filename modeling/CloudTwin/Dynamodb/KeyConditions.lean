/-
**Key conditions** (`aws/dynamodb/query.rs`, the validation of `DynamoDBService::query`).

The parser is a row of searches: for the ` AND ` between two conditions, for `begins_with` in front of
one, for ` BETWEEN ` in it, and for the first operator of a list. The grammar beside it says what the
conditions of a query are, for a lexicon of their names, values and blanks.

* `splitAnd`, `parseCondition`, `collectConditions`, `parse`, `validateQuery` — the code.
* `Lexicon`, `Core`, `ClauseText`, `Written` — the grammar.
* `language`, `loose` — the lexicon of key conditions, and that of what the parser takes for one.
-/

import CloudTwin.Dynamodb.Query
import CloudTwin.Dynamodb.SetClauses
import CloudTwin.Lib.Words

namespace CloudTwin.Dynamodb

open Lib Lib.Text Lib.Words

/-! ### The parser -/

def upper (text : List Char) : List Char := text.map Char.toUpper

def lower (text : List Char) : List Char := text.map Char.toLower

/-- ` AND `, between spaces. -/
def andText : List Char := gap "AND".toList

def betweenText : List Char := gap "BETWEEN".toList

def beginsText : List Char := "begins_with".toList

/-- `resolve_name` of a part of the expression. -/
def resolveToken (token : List Char) (names : Json) : String :=
  resolveName (String.ofList token) names

theorem resolveToken_eq (token : List Char) (names : Json) :
    resolveToken token names = if token.head? = some '#' then
      ((names.get (String.ofList token)).bind Json.asStr).getD (String.ofList token)
    else String.ofList token := by
  unfold resolveToken resolveName startsWith
  rw [String.toList_ofList, String.toList_ofList]
  cases token with
  | nil => rfl
  | cons first rest =>
    have begins : ['#'].isPrefixOf (first :: rest) = ('#' == first) := Bool.and_true _
    rw [begins, List.head?_cons]
    by_cases hash : first = '#'
    · rw [if_pos (beq_iff_eq.mpr hash.symm), if_pos (congrArg some hash)]
    · rw [if_neg fun same => hash (beq_iff_eq.mp same).symm, if_neg fun same => hash (Option.some.inj same)]

def resolveValue (token : List Char) (values : Json) : Except String Json :=
  match values.get (String.ofList (trimChars token)) with
  | some value => .ok value
  | none => .error
    ("Value provided in ExpressionAttributeValues unused in expressions or missing: " ++
      String.ofList (trimChars token))

/-- The loop of `split_and`: `passed` stands between `start` and `i`, `rest` after them. -/
def splitAndFrom : Nat → List Char → Bool → List Char → List (List Char)
  | 0, passed, _, rest => [trimChars (passed ++ rest)]
  | fuel + 1, passed, pendingBetween, rest =>
    match findSub andText (upper rest) with
    | none => [trimChars (passed ++ rest)]
    | some pos =>
      let part := passed ++ rest.take pos
      if (findSub betweenText (upper part)).isSome && !pendingBetween then
        splitAndFrom fuel (passed ++ rest.take (pos + 5)) true (rest.drop (pos + 5))
      else trimChars part :: splitAndFrom fuel [] false (rest.drop (pos + 5))

/-- `split_and`: split on a case-insensitive ` AND ` that is not part of `BETWEEN x AND y`. -/
def splitAnd (expr : List Char) : List (List Char) :=
  splitAndFrom (expr.length + 1) [] false expr

/-- The parentheses around a condition are taken away. -/
def stripFrom : Nat → List Char → List Char
  | 0, p => p
  | fuel + 1, p =>
    if p.head? = some '(' ∧ p.getLast? = some ')' then
      stripFrom fuel (trimChars (p.drop 1).dropLast)
    else p

def stripped (part : List Char) : List Char :=
  stripFrom part.length (trimChars part)

/-- What stands between the first `(` and the last `)` after it. -/
def insideParens (p : List Char) : Option (List Char) := do
  let (_, r) ← splitOnceAt '(' p
  let (inner, _) ← rsplitOnceAt ')' r
  return inner

/-- The operators, in the order in which they are looked for. -/
def comparisonOps : List String := ["<=", ">=", "<", ">", "="]

def parseComparison (part p : List Char) (names values : Json) :
    List String → Except String (String × SortCond)
  | [] => .error ("Invalid KeyConditionExpression: " ++ String.ofList part)
  | op :: ops =>
    match findSub op.toList p with
    | some pos => do
      let value ← resolveValue (p.drop (pos + op.toList.length)) values
      return (resolveToken (trimChars (p.take pos)) names, .cmp op value)
    | none => parseComparison part p names values ops

/-- `parse_condition`. -/
def parseCondition (part : List Char) (names values : Json) :
    Except String (String × SortCond) :=
  let p := stripped part
  if beginsText.isPrefixOf (lower p) then
    match (insideParens p).bind (splitOnceAt ',') with
    | none => .error "Invalid begins_with condition"
    | some (name, value) => do
      let start ← resolveValue value values
      return (resolveToken (trimChars name) names, .beginsWith start)
  else
    match findSub betweenText (upper p) with
    | some bpos =>
      let rest := p.drop (bpos + 9)
      match findSub andText (upper rest) with
      | none => .error "Invalid BETWEEN condition"
      | some apos => do
        let low ← resolveValue (rest.take apos) values
        let high ← resolveValue (rest.drop (apos + 5)) values
        return (resolveToken (trimChars (p.take bpos)) names, .between low high)
    | none => parseComparison part p names values comparisonOps

/-- The conditions of the parts, one after the other: the first equality of the hash key is the
partition condition, the last other condition is the sort condition. -/
def collectConditions (names values : Json) (hashKey : String) :
    List (List Char) → Option Json → Option (String × SortCond) →
      Except String (Option Json × Option (String × SortCond))
  | [], pk, sort => .ok (pk, sort)
  | part :: parts, pk, sort => do
    let (name, cond) ← parseCondition part names values
    match cond with
    | .cmp op value =>
      if op = "=" ∧ name = hashKey ∧ pk.isNone then
        collectConditions names values hashKey parts (some value) sort
      else collectConditions names values hashKey parts pk (some (name, .cmp op value))
    | other => collectConditions names values hashKey parts pk (some (name, other))

/-- `parse`: a `KeyConditionExpression` against the key names of the table. -/
def parse (expr : String) (names values : Json) (hashKey : String) : Except String KeyCondition :=
  let parts := splitAnd expr.toList
  if parts.isEmpty ∨ 2 < parts.length then .error "Invalid KeyConditionExpression"
  else do
    let (pk, sort) ← collectConditions names values hashKey parts none none
    match pk with
    | none => .error ("Query condition missed key schema element: " ++ hashKey)
    | some pkValue => return { pkName := hashKey, pkValue, sort }

/-- What `query` asks of the expression before it goes through the items. -/
def validateQuery (expr : Option String) (names values : Option Json) (hash : String)
    (range : Option String) : Except QueryError KeyCondition :=
  match expr with
  | none => .error (.validation "ValidationException: KeyConditionExpression is required")
  | some expr =>
    match parse expr (names.getD (.obj [])) (values.getD (.obj [])) hash with
    | .error message => .error (.validation ("ValidationException: " ++ message))
    | .ok cond =>
      if (cond.sort.map Prod.fst).any fun sk => range.any fun range => sk != range then
        .error (.validation "ValidationException: Query key condition not supported")
      else .ok cond

/-! ### The grammar -/

/-- A text that stands for a key: its name, or a placeholder of the name. -/
inductive NameText (names : Json) : List Char → String → Prop
  | own (name : String) : NameText names name.toList name
  | placeholder {key name : String} (hash : key.toList.head? = some '#')
      (given : names.get key = some (.str name)) : NameText names key.toList name

/-- A placeholder of a value. -/
def ValueText (values : Json) (token : List Char) (value : Json) : Prop :=
  values.get (String.ofList token) = some value

def SortCond.begins : SortCond → Bool
  | .beginsWith _ => true
  | _ => false

/-- Where the searches of the parser come to the end of a name: no search that comes before stops in it. -/
def Reached (text : List Char) : SortCond → Prop
  | .cmp op _ => ¬betweenText <:+: upper text ∧ ∃ before after, comparisonOps = before ++ op :: after ∧
      ∀ other ∈ op :: before, ¬other.toList <:+: text
  | .between _ _ => ¬betweenText <:+: upper text
  | .beginsWith _ => ',' ∉ text

/-- **What the pieces of a key condition look like**: the text of a name in a condition and that of a
value; the blanks before and after a keyword; what stands around the parentheses of `begins_with`; the
blanks around the AND of two conditions; the key that is not the hash key, and the conditions on it that
may come first. -/
structure Lexicon where
  name : SortCond → List Char → String → Prop
  value : List Char → Json → Prop
  before : List Char → Prop
  after : List Char → Prop
  opening : List Char → Prop
  closing : List Char → Prop
  join : Char → Prop
  keyed : Option String → String → Prop
  leads : String → SortCond → Prop

/-- **The language of key conditions.** -/
def language (names values : Json) : Lexicon where
  name _ := NameText names
  value := ValueText values
  before blanks := Words.Blank blanks ∧ blanks ≠ []
  after blanks := Words.Blank blanks ∧ blanks ≠ []
  opening := Words.Blank
  closing rest := rest = []
  join char := isWhitespace char = true
  keyed range key := range = some key
  leads _ _ := True

/-- **What the parser asks for**: spaces next to the keywords, no parenthesis of the other kind around
those of `begins_with`, and the range key only where there is one. -/
def loose (names values : Json) : Lexicon where
  name cond text key := NameText names text key ∧ (cond.begins = false → ¬beginsText <+: lower text) ∧
    Reached text cond
  value := ValueText values
  before blanks := Words.Blank blanks ∧ blanks.getLast? = some ' '
  after blanks := Words.Blank blanks ∧ blanks.head? = some ' '
  opening rest := '(' ∉ rest
  closing rest := ')' ∉ rest
  join char := char = ' '
  keyed range key := ∀ ranged, range = some ranged → key = ranged
  leads _ _ := True

/-- **A condition on one key**, as it is written. -/
inductive Core (lex : Lexicon) : String → SortCond → List Char → Prop
  | cmp {op name : String} {value : Json} {text blanks more token : List Char}
      (isOp : op ∈ comparisonOps) (isName : lex.name (.cmp op value) text name) (one : Words.Blank blanks)
      (two : Words.Blank more) (isValue : lex.value token value) :
      Core lex name (.cmp op value) (text ++ (blanks ++ (op.toList ++ (more ++ token))))
  | between {name : String} {low high : Json} {text between first and second b₁ b₂ b₃ b₄ : List Char}
      (isName : lex.name (.between low high) text name) (isBetween : upper between = "BETWEEN".toList)
      (isAnd : upper and = "AND".toList) (isLow : lex.value first low)
      (isHigh : lex.value second high) (one : lex.before b₁) (two : lex.after b₂)
      (three : lex.before b₃) (four : lex.after b₄) :
      Core lex name (.between low high)
        (text ++ (b₁ ++ (between ++ (b₂ ++ (first ++ (b₃ ++ (and ++ (b₄ ++ second))))))))
  | beginsWith {name : String} {start : Json} {word text token b₁ b₂ b₃ b₄ b₅ rest : List Char}
      (isName : lex.name (.beginsWith start) text name) (isBegins : lower word = beginsText)
      (isStart : lex.value token start) (one : lex.opening b₁) (two : Words.Blank b₂)
      (three : Words.Blank b₃) (four : Words.Blank b₄) (five : Words.Blank b₅)
      (last : lex.closing rest) :
      Core lex name (.beginsWith start)
        (word ++ (b₁ ++ '(' :: (b₂ ++ (text ++ (b₃ ++ ',' :: (b₄ ++ (token ++ (b₅ ++ ')' :: rest))))))))

/-- A condition with blanks and parentheses around it. -/
inductive ClauseText (lex : Lexicon) (name : String) (cond : SortCond) : List Char → Prop
  | core {before text after : List Char} (one : Words.Blank before) (two : Words.Blank after)
      (core : Core lex name cond text) : ClauseText lex name cond (before ++ (text ++ after))
  | parens {before text after : List Char} (one : Words.Blank before) (two : Words.Blank after)
      (clause : ClauseText lex name cond text) :
      ClauseText lex name cond (before ++ '(' :: (text ++ ')' :: after))

/-- **The grammar of key conditions**: an equality of the hash key, alone or joined to a condition on
another key, in either order. -/
inductive Written (lex : Lexicon) (hash : String) (range : Option String) :
    KeyCondition → List Char → Prop
  | alone {value : Json} {text : List Char} (isHash : ClauseText lex hash (.cmp "=" value) text) :
      Written lex hash range ⟨hash, value, none⟩ text
  | hashFirst {value : Json} {key : String} {cond : SortCond} {first and second : List Char}
      {b₁ b₂ : Char} (isHash : ClauseText lex hash (.cmp "=" value) first)
      (keyed : lex.keyed range key) (isRange : ClauseText lex key cond second)
      (isAnd : upper and = "AND".toList) (one : lex.join b₁) (two : lex.join b₂) :
      Written lex hash range ⟨hash, value, some (key, cond)⟩ (first ++ b₁ :: (and ++ b₂ :: second))
  | rangeFirst {value : Json} {key : String} {cond : SortCond} {first and second : List Char}
      {b₁ b₂ : Char} (isRange : ClauseText lex key cond first) (keyed : lex.keyed range key)
      (leads : lex.leads key cond) (isHash : ClauseText lex hash (.cmp "=" value) second)
      (isAnd : upper and = "AND".toList) (one : lex.join b₁) (two : lex.join b₂) :
      Written lex hash range ⟨hash, value, some (key, cond)⟩ (first ++ b₁ :: (and ++ b₂ :: second))

end CloudTwin.Dynamodb
