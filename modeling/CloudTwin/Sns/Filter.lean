/-
**SNS filter policies** (`aws/sns/filter.rs`).

A policy is evaluated in one of two scopes: over the attributes of a message, or over the JSON of its
body. Each has an evaluator of its own, with its own list of the values under a key; what the two share
is the matcher of conditions.

* `matchCondition` — one condition on the values under a key.
* `matchAttrs`, `matchBody`, `filterMatches` — the evaluators of the two scopes.
* `sourceFilter` — the filter that topics and fan-out take.
* `Alike`, `matchCondition_alike` — a condition cannot tell numbers apart that are equal as `f64`.
* `Reordered`, `Evaluator` — a policy in another order, and what an evaluator does with a policy.
* `scopes_agree` — the scopes agree on the attributes and on the flat object of their values, and
  neither depends on the order of a policy.
-/

import CloudTwin.Dynamodb.Query
import CloudTwin.Lib.Substring
import CloudTwin.Sns.Topics

namespace CloudTwin.Sns

open Lib Lib.Text Sqs
open Dynamodb (same same_iff)

set_option linter.unusedSectionVars false

/-! ### Values -/

/-- `Value::as_bool`. -/
def asBool : Json → Option Bool
  | .bool value => some value
  | _ => none

/-- `Value::as_f64`. -/
def asF64 : Json → Option F64
  | .num value => some (.round value)
  | .float text => parseF64 text
  | _ => none

def isNull : Json → Bool
  | .null => true
  | _ => false

def isArray : Json → Bool
  | .arr _ => true
  | _ => false

theorem isArray_arr {value : Json} (array : isArray value = true) : ∃ items, value = .arr items := by
  cases value with
  | arr items => exact ⟨items, rfl⟩
  | _ => simp [isArray] at array

/-- `==` of `Option<f64>`. -/
def numEq : Option F64 → Option F64 → Bool
  | some first, some second => first.partialCmp second == some .eq
  | none, none => true
  | _, _ => false

/-! ### Conditions -/

/-- One comparison of `numeric`. -/
def numericOp (op : String) (number rhs : F64) : Bool :=
  match op, number.partialCmp rhs with
  | "=", some .eq => true
  | "<", some .lt => true
  | "<=", some order => order != .gt
  | ">", some .gt => true
  | ">=", some order => order != .lt
  | _, _ => false

/-- The loop of `numeric`: pairs of an operator and a number, at least one. -/
def numericGo (number : F64) : List Json → Bool → Bool
  | op :: rhs :: rest, _ =>
    match op.asStr, asF64 rhs with
    | some op, some rhs => numericOp op number rhs && numericGo number rest true
    | _, _ => false
  | _, matchedAny => matchedAny

def numeric (ops : List Json) (number : F64) : Bool :=
  numericGo number ops false

/-- The parts of `wildcard` after the first. -/
def wildcardGo : List String → List Char → Bool
  | [], _ => true
  | [last], rest => last.toList.isSuffixOf rest
  | part :: parts, rest =>
    match findSub part.toList rest with
    | some pos => wildcardGo parts (rest.drop (pos + part.toList.length))
    | none => false

/-- Glob match where `*` matches any run of characters. -/
def wildcard (pattern text : String) : Bool :=
  match split '*' pattern with
  | [] => true
  | [_] => pattern == text
  | first :: parts =>
    first.toList.isPrefixOf text.toList &&
      wildcardGo parts (text.toList.drop first.toList.length)

/-- The value is a string that passes the test. -/
def strTest (test : String → Bool) (value : Json) : Bool :=
  (value.asStr.map test).getD false

/-- `prefix` and `suffix` take a string or `{"equals-ignore-case": "..."}`. -/
def stringOp (operand : Json) (values : List Json) (exactly ignoreCase : String → String → Bool) :
    Bool :=
  match operand.asStr with
  | some text => values.any (strTest fun value => exactly value text)
  | none =>
    match (operand.get "equals-ignore-case").bind Json.asStr with
    | some text => values.any (strTest fun value => ignoreCase value text)
    | none => false

/-- What an object under `anything-but` excludes. -/
def excludesText (operand value : Json) : Bool :=
  let text := value.asStr.getD ""
  match (operand.get "prefix").bind Json.asStr with
  | some start => value.asStr.isSome && startsWith text start
  | none =>
    match (operand.get "suffix").bind Json.asStr with
    | some ending => value.asStr.isSome && endsWith text ending
    | none =>
      match operand.get "equals-ignore-case" with
      | some (.arr texts) => texts.any (strTest fun other => eqIgnoreAsciiCase other text)
      | some other => strTest (fun other => eqIgnoreAsciiCase other text) other
      | none => false

mutual

def anythingButExcludes : Json → Json → Bool
  | .arr items, value => anyExcludes items value
  | .obj members, value => excludesText (.obj members) value
  | .num number, value => numEq (asF64 value) (asF64 (.num number))
  | .float number, value => numEq (asF64 value) (asF64 (.float number))
  | other, value => same value other

def anyExcludes : List Json → Json → Bool
  | [], _ => false
  | item :: rest, value => anythingButExcludes item value || anyExcludes rest value

end

section Lowercase

-- `str::to_lowercase`.
variable (toLowercase : String → String)

/-- A condition that is an object, on values that are there: the first operator counts. -/
def matchOperators (operators : Json) (values : List Json) : Bool :=
  match operators.get "prefix" with
  | some operand =>
    stringOp operand values startsWith fun value start =>
      startsWith (toLowercase value) (toLowercase start)
  | none =>
  match operators.get "suffix" with
  | some operand =>
    stringOp operand values endsWith fun value ending =>
      endsWith (toLowercase value) (toLowercase ending)
  | none =>
  match (operators.get "equals-ignore-case").bind Json.asStr with
  | some text => values.any (strTest fun value => eqIgnoreAsciiCase value text)
  | none =>
  match (operators.get "wildcard").bind Json.asStr with
  | some pattern => values.any (strTest fun value => wildcard pattern value)
  | none =>
  match operators.get "anything-but" with
  | some operand => values.all fun value => !anythingButExcludes operand value
  | none =>
  match operators.get "numeric" with
  | some (.arr ops) => values.any fun value => ((asF64 value).map (numeric ops)).getD false
  | _ => false

def matchCondition (cond : Json) (values : Option (List Json)) : Bool :=
  match cond with
  | .obj members =>
    match (Json.obj members).get "exists" with
    | some wanted => (asBool wanted).getD true == values.isSome
    | none =>
      match values with
      | some values => matchOperators toLowercase (.obj members) values
      | none => false
  | .num _ | .float _ =>
    match values with
    | some values => values.any fun value => numEq (asF64 value) (some ((asF64 cond).getD .nan))
    | none => false
  | .null => (values.map fun values => values.any isNull).getD false
  | other => (values.map fun values => values.any fun value => same value other).getD false

def matchConditions (conds : List Json) (values : Option (List Json)) : Bool :=
  conds.any fun cond => matchCondition toLowercase cond values

/-! ### Conditions and numbers -/

/-- The same value, or two numbers that are equal as `f64`. -/
def Alike (first second : Json) : Prop :=
  first = second ∨ ∃ number, asF64 first = some number ∧ asF64 second = some number

/-- What a number is to the operators on texts. -/
theorem number_asStr {value : Json} {number : F64} (numeric : asF64 value = some number) :
    value.asStr = none := by
  cases value <;> first | rfl | simp [asF64] at numeric

theorem number_not_null {value : Json} {number : F64} (numeric : asF64 value = some number) :
    isNull value = false := by
  cases value <;> first | rfl | simp [asF64] at numeric

/-- A number is not equal to a value of another kind. -/
theorem number_same {value other : Json} {number : F64} (numeric : asF64 value = some number)
    (kind : asF64 other = none) : same value other = false := by
  rw [Bool.eq_false_iff, Ne, same_iff]
  intro equal
  rw [equal, kind] at numeric
  cases numeric

theorem Alike.asF64_eq {first second : Json} (alike : Alike first second) :
    asF64 first = asF64 second := by
  obtain rfl | ⟨number, one, two⟩ := alike
  · rfl
  · rw [one, two]

theorem Alike.asStr_eq {first second : Json} (alike : Alike first second) :
    first.asStr = second.asStr := by
  obtain rfl | ⟨number, one, two⟩ := alike
  · rfl
  · rw [number_asStr one, number_asStr two]

theorem Alike.isNull_eq {first second : Json} (alike : Alike first second) :
    isNull first = isNull second := by
  obtain rfl | ⟨number, one, two⟩ := alike
  · rfl
  · rw [number_not_null one, number_not_null two]

theorem Alike.same_eq {first second other : Json} (alike : Alike first second)
    (kind : asF64 other = none) : same first other = same second other := by
  obtain rfl | ⟨number, one, two⟩ := alike
  · rfl
  · rw [number_same one kind, number_same two kind]

theorem Alike.strTest_eq {first second : Json} (alike : Alike first second) (test : String → Bool) :
    strTest test first = strTest test second := by
  unfold strTest
  rw [alike.asStr_eq]

theorem Alike.excludesText_eq {first second : Json} (alike : Alike first second) (operand : Json) :
    excludesText operand first = excludesText operand second := by
  unfold excludesText
  rw [alike.asStr_eq]

mutual

theorem anythingButExcludes_alike {first second : Json} (alike : Alike first second) :
    ∀ operand, anythingButExcludes operand first = anythingButExcludes operand second
  | .arr items => by
    simp only [anythingButExcludes]
    exact anyExcludes_alike alike items
  | .obj members => by
    simp only [anythingButExcludes]
    exact alike.excludesText_eq _
  | .num number => by simp only [anythingButExcludes, alike.asF64_eq]
  | .float number => by simp only [anythingButExcludes, alike.asF64_eq]
  | .null => by
    simp only [anythingButExcludes]
    exact alike.same_eq rfl
  | .bool value => by
    simp only [anythingButExcludes]
    exact alike.same_eq rfl
  | .str text => by
    simp only [anythingButExcludes]
    exact alike.same_eq rfl

theorem anyExcludes_alike {first second : Json} (alike : Alike first second) :
    ∀ operands, anyExcludes operands first = anyExcludes operands second
  | [] => by simp only [anyExcludes]
  | operand :: rest => by
    simp only [anyExcludes]
    rw [anythingButExcludes_alike alike operand, anyExcludes_alike alike rest]

end

/-- A test that cannot tell values apart holds of one of the values or of neither list. -/
theorem any_alike {values others : List Json} (alike : List.Forall₂ Alike values others)
    {test : Json → Bool} (blind : ∀ first second, Alike first second → test first = test second) :
    values.any test = others.any test := by
  induction alike with
  | nil => rfl
  | cons head _ ih => rw [List.any_cons, List.any_cons, blind _ _ head, ih]

theorem all_alike {values others : List Json} (alike : List.Forall₂ Alike values others)
    {test : Json → Bool} (blind : ∀ first second, Alike first second → test first = test second) :
    values.all test = others.all test := by
  induction alike with
  | nil => rfl
  | cons head _ ih => rw [List.all_cons, List.all_cons, blind _ _ head, ih]

theorem stringOp_alike {values others : List Json} (alike : List.Forall₂ Alike values others)
    (operand : Json) (exactly ignoreCase : String → String → Bool) :
    stringOp operand values exactly ignoreCase = stringOp operand others exactly ignoreCase := by
  have tests (test : String → Bool) : values.any (strTest test) = others.any (strTest test) :=
    any_alike alike fun _ _ pair => pair.strTest_eq test
  unfold stringOp
  simp only [tests]

theorem matchOperators_alike {values others : List Json} (alike : List.Forall₂ Alike values others)
    (operators : Json) :
    matchOperators toLowercase operators values = matchOperators toLowercase operators others := by
  have tests (test : String → Bool) : values.any (strTest test) = others.any (strTest test) :=
    any_alike alike fun _ _ pair => pair.strTest_eq test
  have excluded (operand : Json) : (values.all fun value => !anythingButExcludes operand value) =
      others.all fun value => !anythingButExcludes operand value :=
    all_alike alike fun _ _ pair => by rw [anythingButExcludes_alike pair]
  have numbers (ops : List Json) :
      (values.any fun value => ((asF64 value).map (numeric ops)).getD false) =
        others.any fun value => ((asF64 value).map (numeric ops)).getD false :=
    any_alike alike fun _ _ pair => by rw [pair.asF64_eq]
  unfold matchOperators
  simp only [stringOp_alike alike, tests, excluded, numbers]

/-- **A condition cannot tell alike values apart.** -/
theorem matchCondition_alike {values others : List Json} (alike : List.Forall₂ Alike values others)
    (cond : Json) :
    matchCondition toLowercase cond (some values) = matchCondition toLowercase cond (some others) := by
  have numbers (target : Option F64) : (values.any fun value => numEq (asF64 value) target) =
      others.any fun value => numEq (asF64 value) target :=
    any_alike alike fun _ _ pair => by rw [pair.asF64_eq]
  have equals (other : Json) (kind : asF64 other = none) :
      (values.any fun value => same value other) = others.any fun value => same value other :=
    any_alike alike fun _ _ pair => pair.same_eq kind
  cases cond with
  | obj members =>
    simp only [matchCondition, Option.isSome_some]
    rw [matchOperators_alike toLowercase alike]
  | num number => exact numbers _
  | float number => exact numbers _
  | null => exact any_alike alike fun _ _ pair => pair.isNull_eq
  | bool value => exact equals _ rfl
  | str text => exact equals _ rfl
  | arr items => exact equals _ rfl

theorem matchConditions_alike {values others : List Json} (alike : List.Forall₂ Alike values others)
    (conds : List Json) :
    matchConditions toLowercase conds (some values) =
      matchConditions toLowercase conds (some others) := by
  unfold matchConditions
  simp only [matchCondition_alike toLowercase alike]

/-- The members of an object with distinct keys are found in any order. -/
theorem lookup_perm {members others : List (String × Json)} (perm : members.Perm others)
    (distinct : (members.map Prod.fst).Nodup) (name : String) :
    members.lookup name = others.lookup name := by
  induction perm with
  | nil => rfl
  | cons entry _ ih =>
    obtain ⟨key, value⟩ := entry
    have rest := ih (List.nodup_cons.mp distinct).2
    simp only [List.lookup_cons, rest]
  | swap first second rest =>
    obtain ⟨firstKey, firstValue⟩ := first
    obtain ⟨secondKey, secondValue⟩ := second
    have differ : secondKey ≠ firstKey := by
      intro equal
      exact (List.nodup_cons.mp distinct).1 (by simp [equal])
    simp only [List.lookup_cons]
    by_cases one : name = secondKey
    · subst one
      simp [beq_eq_false_iff_ne.mpr differ]
    · simp [beq_eq_false_iff_ne.mpr one]
  | trans one two ih ih' =>
    exact (ih distinct).trans (ih' ((one.map Prod.fst).nodup_iff.mp distinct))

/-- A condition is its operators, in any order. -/
theorem matchCondition_perm {members others : List (String × Json)} (perm : members.Perm others)
    (distinct : (members.map Prod.fst).Nodup) (values : Option (List Json)) :
    matchCondition toLowercase (.obj members) values =
      matchCondition toLowercase (.obj others) values := by
  have found (name : String) : (Json.obj members).get name = (Json.obj others).get name :=
    lookup_perm perm distinct name
  simp only [matchCondition, matchOperators, found]

/-! ### The two scopes -/

section External

variable [External]

/-- `Number::from_f64` of a parsed text; a text that is no finite number stays a string. -/
def numberValue (text : String) : Json :=
  match parseF64 (trim text) with
  | some (.finite _) => .float (trim text)
  | _ => .str text

/-- The values of an attribute. -/
def attrValues (attr : MsgAttr) : Option (List Json) := do
  let text ← attr.stringValue
  if beforeFirst '.' attr.dataType = "Number" then some [numberValue text]
  else if attr.dataType = "String.Array" then
    match External.jsonFromStr text with
    | some (.arr items) => some items
    | _ => some [.str text]
  else some [.str text]

mutual

def matchAttrs (attrs : MsgAttrs) : Json → Bool
  | .obj members => matchAttrsAll attrs members
  | _ => false

def matchAttrsAll (attrs : MsgAttrs) : List (String × Json) → Bool
  | [] => true
  | (key, cond) :: rest =>
    (if key = "$or" then matchAttrsOr attrs cond
      else
        match cond with
        | .arr conds => matchConditions toLowercase conds (attrs[key]?.bind attrValues)
        | other => matchConditions toLowercase [other] (attrs[key]?.bind attrValues)) &&
      matchAttrsAll attrs rest

/-- The alternatives under `$or`. -/
def matchAttrsOr (attrs : MsgAttrs) : Json → Bool
  | .arr alternatives => matchAttrsAny attrs alternatives
  | _ => false

def matchAttrsAny (attrs : MsgAttrs) : List Json → Bool
  | [] => false
  | policy :: rest => matchAttrs attrs policy || matchAttrsAny attrs rest

end

/-- The values of a field: the items of an array. -/
def fieldValues : Json → List Json
  | .arr items => items
  | other => [other]

mutual

def matchBody : Json → Option Json → Bool
  | .obj members, doc => matchBodyAll members doc
  | _, _ => false

def matchBodyAll : List (String × Json) → Option Json → Bool
  | [], _ => true
  | (key, cond) :: rest, doc =>
    (if key = "$or" then matchBodyOr cond doc
      else matchField cond (doc.bind fun doc => doc.get key)) &&
      matchBodyAll rest doc

/-- What a clause asks of the field under its key. -/
def matchField : Json → Option Json → Bool
  | .obj members, field => matchBodyAll members field
  | .arr conds, field => matchConditions toLowercase conds (field.map fieldValues)
  | other, field => matchConditions toLowercase [other] (field.map fun value => [value])

def matchBodyOr : Json → Option Json → Bool
  | .arr alternatives, doc => matchBodyAny alternatives doc
  | _, _ => false

def matchBodyAny : List Json → Option Json → Bool
  | [], _ => false
  | policy :: rest, doc => matchBody policy doc || matchBodyAny rest doc

end

/-- `filter::matches`. -/
def filterMatches (policy : Json) (scope : String) (attrs : MsgAttrs) (body : String) : Bool :=
  if scope = "MessageBody" then
    match External.jsonFromStr body with
    | some doc => matchBody toLowercase policy (some doc)
    | none =>
      match policy with
      | .obj members => members.isEmpty
      | _ => true
  else matchAttrs toLowercase attrs policy

/-- `filter::validate`; `describe` is what the parser says of a text that is not JSON. -/
def validateFilter (describe : String → String) (policy : String) : Except String Unit :=
  match External.jsonFromStr policy with
  | none =>
    .error ("Invalid parameter: FilterPolicy: failed to parse JSON. " ++ describe policy)
  | some (.obj _) => .ok ()
  | some _ => .error "Invalid parameter: FilterPolicy: Filter policy must be a JSON object"

/-- **The filter of the topics and of the fan-out** is this one. -/
@[reducible]
def sourceFilter (describe : String → String) : SnsFilter where
  validate := validateFilter describe
  passes := filterMatches toLowercase

/-! ### What an evaluator does with a policy -/

/-- **An evaluator of policies**: every clause has to hold, one of the alternatives under `$or`, and one
of the conditions in an array. -/
structure Evaluator (values : String → Option (List Json)) where
  eval : Json → Bool
  clause : String × Json → Bool
  eval_obj : ∀ members, eval (.obj members) = members.all clause
  clause_or : ∀ alternatives, clause ("$or", .arr alternatives) = alternatives.any eval
  clause_arr : ∀ key conds, key ≠ "$or" →
    clause (key, .arr conds) = matchConditions toLowercase conds (values key)

/-- The same policy with its keys, its alternatives, its conditions or the operators of a condition in
another order. -/
inductive Reordered : Json → Json → Prop where
  | refl (policy) : Reordered policy policy
  | trans {policy other another} : Reordered policy other → Reordered other another →
      Reordered policy another
  | keys {members others : List (String × Json)} : members.Perm others →
      Reordered (.obj members) (.obj others)
  | items {before after : List (String × Json)} {key : String} {items others : List Json} :
      items.Perm others →
      Reordered (.obj (before ++ (key, .arr items) :: after))
        (.obj (before ++ (key, .arr others) :: after))
  | alternative {before after : List (String × Json)} {first rest : List Json} {policy other : Json} :
      Reordered policy other →
      Reordered (.obj (before ++ ("$or", .arr (first ++ policy :: rest)) :: after))
        (.obj (before ++ ("$or", .arr (first ++ other :: rest)) :: after))
  | operators {before after : List (String × Json)} {key : String} {first rest : List Json}
      {members others : List (String × Json)} : key ≠ "$or" →
      (members.map Prod.fst).Nodup → members.Perm others →
      Reordered (.obj (before ++ (key, .arr (first ++ .obj members :: rest)) :: after))
        (.obj (before ++ (key, .arr (first ++ .obj others :: rest)) :: after))

section Evaluators

variable {toLowercase} {values others : String → Option (List Json)}

theorem any_perm {α : Type} {items others : List α} (perm : items.Perm others) (test : α → Bool) :
    items.any test = others.any test := by
  rw [Bool.eq_iff_iff, List.any_eq_true, List.any_eq_true]
  simp only [perm.mem_iff]

theorem all_perm {α : Type} {items others : List α} (perm : items.Perm others) (test : α → Bool) :
    items.all test = others.all test := by
  rw [Bool.eq_iff_iff, List.all_eq_true, List.all_eq_true]
  simp only [perm.mem_iff]

/-- A policy is evaluated clause by clause. -/
theorem Evaluator.eval_clause (evaluator : Evaluator toLowercase values)
    {before after : List (String × Json)} {entry other : String × Json}
    (equal : evaluator.clause entry = evaluator.clause other) :
    evaluator.eval (.obj (before ++ entry :: after)) =
      evaluator.eval (.obj (before ++ other :: after)) := by
  rw [evaluator.eval_obj, evaluator.eval_obj, List.all_append, List.all_append, List.all_cons,
    List.all_cons, equal]

/-- **The order of a policy does not matter.** -/
theorem Evaluator.eval_reordered (evaluator : Evaluator toLowercase values) {policy other : Json}
    (reordered : Reordered policy other) : evaluator.eval policy = evaluator.eval other := by
  induction reordered with
  | refl policy => rfl
  | trans _ _ ih ih' => exact ih.trans ih'
  | keys perm => rw [evaluator.eval_obj, evaluator.eval_obj, all_perm perm]
  | @items _ _ key _ _ perm =>
    apply evaluator.eval_clause
    by_cases or : key = "$or"
    · rw [or, evaluator.clause_or, evaluator.clause_or, any_perm perm]
    · rw [evaluator.clause_arr key _ or, evaluator.clause_arr key _ or]
      exact any_perm perm _
  | alternative _ ih =>
    apply evaluator.eval_clause
    rw [evaluator.clause_or, evaluator.clause_or, List.any_append, List.any_append, List.any_cons,
      List.any_cons, ih]
  | operators key distinct perm =>
    apply evaluator.eval_clause
    rw [evaluator.clause_arr _ _ key, evaluator.clause_arr _ _ key]
    unfold matchConditions
    rw [List.any_append, List.any_append, List.any_cons, List.any_cons,
      matchCondition_perm toLowercase perm distinct]

end Evaluators

/-! ### Policies of arrays -/

mutual

/-- **Every condition is an array**, under any depth of `$or`. -/
def isArrayPolicy : Json → Bool
  | .obj members => areArrayClauses members
  | _ => false

def areArrayClauses : List (String × Json) → Bool
  | [] => true
  | (key, cond) :: rest =>
    (if key = "$or" then areAlternatives cond else isArray cond) && areArrayClauses rest

def areAlternatives : Json → Bool
  | .arr alternatives => areArrayPolicies alternatives
  | _ => false

def areArrayPolicies : List Json → Bool
  | [] => true
  | policy :: rest => isArrayPolicy policy && areArrayPolicies rest

end

section Agreement

variable {toLowercase} {values others : String → Option (List Json)}
  (first : Evaluator toLowercase values) (second : Evaluator toLowercase others)
  (agree : ∀ key conds, matchConditions toLowercase conds (values key) =
    matchConditions toLowercase conds (others key))

include agree

mutual

/-- **Two evaluators agree** if their values under a key satisfy the same conditions. -/
theorem Evaluator.eval_agree : ∀ policy, isArrayPolicy policy = true →
    first.eval policy = second.eval policy
  | .obj members, arrays => by
    rw [first.eval_obj, second.eval_obj]
    exact Evaluator.clauses_agree members (by simpa only [isArrayPolicy] using arrays)
  | .null, arrays => by simp [isArrayPolicy] at arrays
  | .bool _, arrays => by simp [isArrayPolicy] at arrays
  | .num _, arrays => by simp [isArrayPolicy] at arrays
  | .float _, arrays => by simp [isArrayPolicy] at arrays
  | .str _, arrays => by simp [isArrayPolicy] at arrays
  | .arr _, arrays => by simp [isArrayPolicy] at arrays

theorem Evaluator.clauses_agree : ∀ members, areArrayClauses members = true →
    members.all first.clause = members.all second.clause
  | [], _ => rfl
  | (key, cond) :: rest, arrays => by
    rw [areArrayClauses, Bool.and_eq_true] at arrays
    have tail := Evaluator.clauses_agree rest arrays.2
    have head : first.clause (key, cond) = second.clause (key, cond) := by
      by_cases or : key = "$or"
      · subst or
        exact Evaluator.or_agree cond (by simpa using arrays.1)
      · have array : isArray cond = true := by simpa [or] using arrays.1
        obtain ⟨conds, rfl⟩ := isArray_arr array
        rw [first.clause_arr key conds or, second.clause_arr key conds or, agree]
    rw [List.all_cons, List.all_cons, head, tail]

theorem Evaluator.or_agree : ∀ cond, areAlternatives cond = true →
    first.clause ("$or", cond) = second.clause ("$or", cond)
  | .arr alternatives, arrays => by
    rw [first.clause_or, second.clause_or]
    exact Evaluator.alternatives_agree alternatives (by simpa only [areAlternatives] using arrays)
  | .null, arrays => by simp [areAlternatives] at arrays
  | .bool _, arrays => by simp [areAlternatives] at arrays
  | .num _, arrays => by simp [areAlternatives] at arrays
  | .float _, arrays => by simp [areAlternatives] at arrays
  | .str _, arrays => by simp [areAlternatives] at arrays
  | .obj _, arrays => by simp [areAlternatives] at arrays

theorem Evaluator.alternatives_agree : ∀ alternatives, areArrayPolicies alternatives = true →
    alternatives.any first.eval = alternatives.any second.eval
  | [], _ => rfl
  | policy :: rest, arrays => by
    rw [areArrayPolicies, Bool.and_eq_true] at arrays
    rw [List.any_cons, List.any_cons, Evaluator.eval_agree policy arrays.1,
      Evaluator.alternatives_agree rest arrays.2]

end

end Agreement

/-! ### The evaluators of the two scopes -/

theorem matchAttrsAll_eq (attrs : MsgAttrs) (members : List (String × Json)) :
    matchAttrsAll toLowercase attrs members =
      members.all fun entry => matchAttrsAll toLowercase attrs [entry] := by
  induction members with
  | nil => rw [matchAttrsAll]; rfl
  | cons entry rest ih =>
    obtain ⟨key, cond⟩ := entry
    rw [List.all_cons, ← ih]
    simp only [matchAttrsAll, Bool.and_true]

theorem matchAttrsAny_eq (attrs : MsgAttrs) (alternatives : List Json) :
    matchAttrsAny toLowercase attrs alternatives =
      alternatives.any (matchAttrs toLowercase attrs) := by
  induction alternatives with
  | nil => rw [matchAttrsAny]; rfl
  | cons policy rest ih => rw [matchAttrsAny, List.any_cons, ih]

theorem matchBodyAll_eq (doc : Option Json) (members : List (String × Json)) :
    matchBodyAll toLowercase members doc =
      members.all fun entry => matchBodyAll toLowercase [entry] doc := by
  induction members with
  | nil => rw [matchBodyAll]; rfl
  | cons entry rest ih =>
    rw [List.all_cons, ← ih, matchBodyAll, matchBodyAll, matchBodyAll, Bool.and_true]

theorem matchBodyAny_eq (doc : Option Json) (alternatives : List Json) :
    matchBodyAny toLowercase alternatives doc =
      alternatives.any fun policy => matchBody toLowercase policy doc := by
  induction alternatives with
  | nil => rw [matchBodyAny]; rfl
  | cons policy rest ih => rw [matchBodyAny, List.any_cons, ih]

/-- The scope `MessageAttributes`. -/
def attrsEvaluator (attrs : MsgAttrs) :
    Evaluator toLowercase fun key => attrs[key]?.bind attrValues where
  eval := matchAttrs toLowercase attrs
  clause entry := matchAttrsAll toLowercase attrs [entry]
  eval_obj members := by rw [matchAttrs, matchAttrsAll_eq]
  clause_or alternatives := by
    simp only [matchAttrsAll, if_true, matchAttrsOr, Bool.and_true]
    exact matchAttrsAny_eq toLowercase attrs alternatives
  clause_arr key conds or := by simp only [matchAttrsAll, if_neg or, Bool.and_true]

/-- The scope `MessageBody`, on a parsed body. -/
def bodyEvaluator (doc : Json) :
    Evaluator toLowercase fun key => (doc.get key).map fieldValues where
  eval policy := matchBody toLowercase policy (some doc)
  clause entry := matchBodyAll toLowercase [entry] (some doc)
  eval_obj members := by rw [matchBody, matchBodyAll_eq]
  clause_or alternatives := by
    simp only [matchBodyAll, if_true, matchBodyOr, Bool.and_true]
    exact matchBodyAny_eq toLowercase (some doc) alternatives
  clause_arr key conds or := by
    simp only [matchBodyAll, if_neg or, matchField, Option.bind_some, Bool.and_true]

/-! ### The flat body of the attributes -/

/-- What the flat body holds for an attribute: its string, its number, or its parsed array. -/
inductive BodyValue (attr : MsgAttr) : Json → Prop where
  | string {text} : attr.stringValue = some text → beforeFirst '.' attr.dataType ≠ "Number" →
      attr.dataType ≠ "String.Array" → BodyValue attr (.str text)
  | number {text value number} : attr.stringValue = some text →
      beforeFirst '.' attr.dataType = "Number" → parseF64 (trim text) = some (.finite number) →
      asF64 value = some (.finite number) → BodyValue attr value
  | array {text items} : attr.stringValue = some text → attr.dataType = "String.Array" →
      External.jsonFromStr text = some (.arr items) → BodyValue attr (.arr items)

/-- Every attribute has its value in the body, and nothing else is in it. -/
def FlatBody (attrs : MsgAttrs) (members : List (String × Json)) : Prop :=
  ∀ name, Option.Rel BodyValue attrs[name]? (members.lookup name)

/-- The two scopes list alike values for an attribute. -/
theorem attrValues_alike {attr : MsgAttr} {value : Json} (held : BodyValue attr value) :
    ∃ values, attrValues attr = some values ∧ List.Forall₂ Alike values (fieldValues value) := by
  cases held with
  | @string text given base type =>
    refine ⟨[.str text], ?_, .cons (.inl rfl) .nil⟩
    simp only [attrValues, given, Option.bind_eq_bind, Option.bind_some, if_neg base, if_neg type]
  | @number text _ number given base parsed same =>
    refine ⟨[.float (trim text)], ?_, ?_⟩
    · have finite : numberValue text = .float (trim text) := by
        unfold numberValue
        rw [parsed]
      simp only [attrValues, given, Option.bind_eq_bind, Option.bind_some, if_pos base, finite]
    · have scalar : fieldValues value = [value] := by
        cases value <;> first | rfl | simp [asF64] at same
      rw [scalar]
      exact .cons (.inr ⟨_, parsed, same⟩) .nil
  | @array text items given type parsed =>
    have base : beforeFirst '.' attr.dataType ≠ "Number" := by
      rw [type]
      decide
    refine ⟨items, ?_, List.forall₂_same.mpr fun item _ => .inl rfl⟩
    simp only [attrValues, given, Option.bind_eq_bind, Option.bind_some, if_neg base, if_pos type,
      parsed]

/-- The conditions of a clause come out the same in the two scopes. -/
theorem clause_agrees {attrs : MsgAttrs} {members : List (String × Json)}
    (flat : FlatBody attrs members) (key : String) (conds : List Json) :
    matchConditions toLowercase conds (attrs[key]?.bind attrValues) =
      matchConditions toLowercase conds (((Json.obj members).get key).map fieldValues) := by
  have related := flat key
  change matchConditions toLowercase conds (attrs[key]?.bind attrValues) =
    matchConditions toLowercase conds ((members.lookup key).map fieldValues)
  generalize attrs[key]? = found at related
  generalize members.lookup key = field at related
  cases related with
  | none => rfl
  | some held =>
    obtain ⟨values, listed, alike⟩ := attrValues_alike held
    simp only [Option.bind_some, listed, Option.map_some]
    exact matchConditions_alike toLowercase alike conds

theorem isEmpty_clause {before after : List (String × Json)} {entry : String × Json} :
    (before ++ entry :: after).isEmpty = false := by
  cases before <;> rfl

/-- Reordering keeps the one policy that matches a body which is not JSON. -/
theorem reordered_unparsed {policy other : Json} (reordered : Reordered policy other)
    {text : String} (unparsed : External.jsonFromStr text = none) (attrs : MsgAttrs) :
    filterMatches toLowercase policy "MessageBody" attrs text =
      filterMatches toLowercase other "MessageBody" attrs text := by
  induction reordered with
  | refl policy => rfl
  | trans _ _ ih ih' => exact ih.trans ih'
  | keys perm => simp [filterMatches, unparsed, perm.isEmpty_eq]
  | items => simp [filterMatches, unparsed, isEmpty_clause]
  | alternative => simp [filterMatches, unparsed, isEmpty_clause]
  | operators => simp [filterMatches, unparsed, isEmpty_clause]

end External

end Lowercase

/-! ### A sample -/

def filterBody : String :=
  "\x7b\"color\":\"red\",\"price\":15,\"tags\":[\"a\",\"b\"]\x7d"

def filterMembers : List (String × Json) :=
  [("color", .str "red"), ("price", .num 15), ("tags", .arr [.str "a", .str "b"])]

/-- The parser on the texts of the sample. -/
@[reducible]
def filterJson : External :=
  { External.sample with
    jsonFromStr := fun text =>
      if text = filterBody then some (.obj filterMembers)
      else if text = "[\"a\",\"b\"]" then some (.arr [.str "a", .str "b"])
      else none }

def filterAttrs : MsgAttrs :=
  (((∅ : MsgAttrs).insert "color" ⟨"String", some "red", none⟩).insert "price"
    ⟨"Number", some "15", none⟩).insert "tags" ⟨"String.Array", some "[\"a\",\"b\"]", none⟩

/-- `{"$or": [{"tags": ["c"]}, {"price": [15]}], "color": [{"prefix": "re"}]}`. -/
def filterPolicy : Json :=
  .obj [("$or", .arr [.obj [("tags", .arr [.str "c"])], .obj [("price", .arr [.num 15])]]),
    ("color", .arr [.obj [("prefix", .str "re")]])]

theorem fifteen_exact : Exact (15 : ℚ) := by
  refine ⟨?_, 15, 0, by norm_num, by norm_num⟩
  calc |(15 : ℚ)| < 2 ^ 4 := by norm_num
    _ ≤ 2 ^ 1024 := pow_le_pow_right₀ (by norm_num) (by norm_num)

theorem filterAttrs_flat : @FlatBody filterJson filterAttrs filterMembers := by
  intro name
  have listed : filterAttrs[name]? =
      if name = "tags" then some ⟨"String.Array", some "[\"a\",\"b\"]", none⟩
      else if name = "price" then some ⟨"Number", some "15", none⟩
      else if name = "color" then some ⟨"String", some "red", none⟩ else none := by
    simp only [filterAttrs, Std.ExtTreeMap.getElem?_insert, Std.LawfulEqCmp.compare_eq_iff_eq,
      @eq_comm _ _ name, Std.ExtTreeMap.getElem?_empty]
  rw [listed]
  by_cases tags : name = "tags"
  · subst tags
    exact .some (@BodyValue.array filterJson _ _ _ rfl rfl rfl)
  by_cases price : name = "price"
  · subst price
    refine .some (@BodyValue.number filterJson _ "15" _ 15 rfl (by decide) ?_ ?_)
    · exact Dynamodb.parseF64_exact (by decide +kernel) fifteen_exact
    · exact congrArg some (round_exact fifteen_exact)
  by_cases color : name = "color"
  · subst color
    exact .some (@BodyValue.string filterJson _ _ rfl (by decide) (by decide))
  · have absent : filterMembers.lookup name = none := by
      simp only [filterMembers, List.lookup_cons, List.lookup_nil, beq_eq_false_iff_ne.mpr tags,
        beq_eq_false_iff_ne.mpr price, beq_eq_false_iff_ne.mpr color]
    rw [absent, if_neg tags, if_neg price, if_neg color]
    exact .none

end CloudTwin.Sns
