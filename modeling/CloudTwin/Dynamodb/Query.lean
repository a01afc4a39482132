/-
**DynamoDB queries** (`aws/dynamodb/query.rs`, `DynamoDBService::query`).

A query goes through the items of the table, keeps those that satisfy the key condition, sorts them by
the range key, and turns them around or cuts them off. All of it rests on `compareValues`, which
compares binary values by their base64 texts.

* `compareValues`, `KeyCondition.holds`, `queryParsed` — the code.
* `KeyValue`, `KeyValue.order`, `Answers`, `IsAnswer` — the values, their order, and the right answer.
* `Faithful` — the texts compare like the values.
* `query_answers` — the answer is right if and only if the texts are faithful; numbers and strings are.
* `query_out_of_order` — a query by a binary range key that is not sorted.
-/

import CloudTwin.Dynamodb.Service
import CloudTwin.Lib.Base64
import CloudTwin.Lib.Float
import Mathlib.Data.List.Sort
import Mathlib.Data.List.Lex

namespace CloudTwin.Dynamodb

open Lib Lib.Text Base64

set_option linter.unusedSectionVars false

/-! ### Equality of values -/

mutual

/-- `Value::eq`. -/
def same : Json → Json → Bool
  | .null, .null => true
  | .bool first, .bool second => first == second
  | .num first, .num second => first == second
  | .float first, .float second => first == second
  | .str first, .str second => first == second
  | .arr first, .arr second => sameItems first second
  | .obj first, .obj second => sameMembers first second
  | _, _ => false

def sameItems : List Json → List Json → Bool
  | [], [] => true
  | first :: rest, second :: others => same first second && sameItems rest others
  | _, _ => false

def sameMembers : List (String × Json) → List (String × Json) → Bool
  | [], [] => true
  | (name, value) :: rest, (otherName, other) :: others =>
    name == otherName && same value other && sameMembers rest others
  | _, _ => false

end

mutual

theorem same_iff : ∀ first second : Json, same first second = true ↔ first = second
  | .null, second => by cases second <;> simp [same]
  | .bool _, second => by cases second <;> simp [same]
  | .num _, second => by cases second <;> simp [same]
  | .float _, second => by cases second <;> simp [same]
  | .str _, second => by cases second <;> simp [same]
  | .arr first, second => by
    cases second with
    | arr second => simp [same, sameItems_iff first second]
    | _ => simp [same]
  | .obj first, second => by
    cases second with
    | obj second => simp [same, sameMembers_iff first second]
    | _ => simp [same]

theorem sameItems_iff : ∀ first second : List Json, sameItems first second = true ↔ first = second
  | [], second => by cases second <;> simp [sameItems]
  | first :: rest, second => by
    cases second with
    | nil => simp [sameItems]
    | cons other others => simp [sameItems, same_iff first other, sameItems_iff rest others]

theorem sameMembers_iff : ∀ first second : List (String × Json),
    sameMembers first second = true ↔ first = second
  | [], second => by cases second <;> simp [sameMembers]
  | (name, value) :: rest, second => by
    cases second with
    | nil => simp [sameMembers]
    | cons other others =>
      simp [sameMembers, same_iff value other.2, sameMembers_iff rest others, Prod.ext_iff]

end

instance : DecidableEq Json := fun first second =>
  decidable_of_iff (same first second = true) (same_iff first second)

/-! ### Conditions -/

inductive SortCond where
  | cmp (op : String) (value : Json)
  | between (low high : Json)
  | beginsWith (start : Json)

structure KeyCondition where
  pkName : String
  pkValue : Json
  sort : Option (String × SortCond)

/-- The text of a typed value. -/
def typedText (value : Json) (type : String) : Option String :=
  (value.get type).bind Json.asStr

/-- `Ord::cmp` of a linear order. -/
def linearOrder {κ : Type} [LinearOrder κ] (first second : κ) : Ordering :=
  cmp first second

/-- The order of two slices of bytes. -/
def bytesOrder (first second : List UInt8) : Ordering :=
  linearOrder (first.map UInt8.toNat) (second.map UInt8.toNat)

/-- `compare`: order two typed attribute values. -/
def compareValues (first second : Json) : Option Ordering :=
  match typedText first "N", typedText second "N" with
  | some x, some y => do
    let x ← parseF64 x
    let y ← parseF64 y
    x.partialCmp y
  | _, _ =>
    match typedText first "S", typedText second "S" with
    | some x, some y => some (bytesOrder (utf8 x) (utf8 y))
    | _, _ =>
      match typedText first "B", typedText second "B" with
      | some x, some y => some (bytesOrder (utf8 x) (utf8 y))
      | _, _ => none

/-- Whether an order is what the operator asks for. -/
def opHolds (op : String) (order : Ordering) : Bool :=
  if op = "=" then order == .eq
  else if op = "<" then order == .lt
  else if op = "<=" then order != .gt
  else if op = ">" then order == .gt
  else if op = ">=" then order != .lt
  else false

def SortCond.holds (cond : SortCond) (value : Json) : Bool :=
  match cond with
  | .cmp op right => (compareValues value right).any (opHolds op)
  | .between low high =>
    (compareValues value low).any (opHolds ">=") && (compareValues value high).any (opHolds "<=")
  | .beginsWith start =>
    match (typedText value "S").or (typedText value "B"),
      (typedText start "S").or (typedText start "B") with
    | some text, some start => startsWith text start
    | _, _ => false

/-- `KeyCondition::matches`. -/
def KeyCondition.holds (cond : KeyCondition) (item : Json) : Bool :=
  decide (item.get cond.pkName = some cond.pkValue) &&
    match cond.sort with
    | none => true
    | some (name, sort) => (item.get name).any sort.holds

/-! ### Queries -/

section External

variable [External]

/-- `scan` without a limit: an item that is not JSON is passed over. -/
def scanAll (store : DynamoStore) (tableName : String) : List Json :=
  (store.items.filter fun row => row.tableName == tableName).filterMap fun row =>
    External.jsonFromStr row.item

/-- How `sort_by` compares two items: not at all if one has no such typed, or no such value. -/
def rangeOrder (range : String) (first second : Json) : Ordering :=
  match first.get range, second.get range with
  | some x, some y => (compareValues x y).getD .eq
  | _, _ => .eq

def sortItems (range : String) (items : List Json) : List Json :=
  items.mergeSort fun first second => rangeOrder range first second != .gt

inductive QueryError where
  | notFound (message : String)
  | validation (message : String)
deriving DecidableEq

/-- **`query`**, of a condition that has been parsed against the key names of the table. -/
def queryParsed (store : DynamoStore) (tableName : String) (cond : KeyCondition)
    (scanIndexForward : Option Bool) (limit : Option Nat) :
    Except QueryError (List Json × Nat) :=
  match findTable store tableName with
  | none => .error (.notFound "ResourceNotFoundException: Requested resource not found")
  | some table =>
    let range := keyName table.keySchema "RANGE"
    if (cond.sort.map Prod.fst).any fun sk => range.any fun range => sk != range then
      .error (.validation "ValidationException: Query key condition not supported")
    else
      let found := (scanAll store tableName).filter cond.holds
      let sorted :=
        match range with
        | some range => sortItems range found
        | none => found
      let turned := if scanIndexForward = some false then sorted.reverse else sorted
      .ok (match limit with
        | some limit => turned.take limit
        | none => turned, found.length)

end External

/-! ### Values and their order -/

/-- **A typed key value.** -/
inductive KeyValue where
  | string (text : String)
  | number (value : ℚ)
  | binary (bytes : List UInt8)

/-- The key value that a typed value stands for. -/
def keyValue : Json → Option KeyValue
  | .obj [(type, .str text)] =>
    if type = "S" then some (.string text)
    else if type = "N" then (parseDecimal text).map .number
    else if type = "B" then (standardDecode text).map .binary
    else none
  | _ => none

/-- **The order of the values of one type**: numbers by value, texts and bytes by bytes. -/
def KeyValue.order : KeyValue → KeyValue → Option Ordering
  | .string first, .string second => some (bytesOrder (utf8 first) (utf8 second))
  | .number first, .number second => some (cmp first second)
  | .binary first, .binary second => some (bytesOrder first second)
  | _, _ => none

/-- The value starts with the other one. -/
def KeyValue.startsWith : KeyValue → KeyValue → Prop
  | .string text, .string start => start.toList <+: text.toList
  | .binary bytes, .binary start => start <+: bytes
  | _, _ => False

/-- The value satisfies the condition. -/
def SortCond.Admits (cond : SortCond) (value : KeyValue) : Prop :=
  match cond with
  | .cmp op right => ∃ other order, keyValue right = some other ∧
      value.order other = some order ∧ opHolds op order = true
  | .between low high => ∃ least most above below, keyValue low = some least ∧
      keyValue high = some most ∧ value.order least = some above ∧ above ≠ .lt ∧
      value.order most = some below ∧ below ≠ .gt
  | .beginsWith start => ∃ other, keyValue start = some other ∧ value.startsWith other

/-- **The item answers the query.** -/
def Answers (range : String) (cond : KeyCondition) (item : Json) : Prop :=
  item.get cond.pkName = some cond.pkValue ∧
    ∀ name sort, cond.sort = some (name, sort) →
      ∃ typed value, item.get range = some typed ∧ keyValue typed = some value ∧
        sort.Admits value

/-- The first item comes no later than the second. -/
def Precedes (range : String) (first second : Json) : Prop :=
  ∃ x y v w order, first.get range = some x ∧ second.get range = some y ∧ keyValue x = some v ∧
    keyValue y = some w ∧ v.order w = some order ∧ order ≠ .gt

open Classical in
/-- **The right answer**: the items that answer the query, in order or turned around, up to the
limit. -/
def IsAnswer (range : String) (cond : KeyCondition) (scanIndexForward : Option Bool)
    (limit : Option Nat) (items answer : List Json) : Prop :=
  ∃ ordered : List Json, ordered.Perm (items.filter fun item => Answers range cond item) ∧
    ordered.Pairwise (Precedes range) ∧
    answer =
      let turned := if scanIndexForward = some false then ordered.reverse else ordered
      match limit with
      | some limit => turned.take limit
      | none => turned

/-- The range values of the items are of one type; numbers have an exact representation. -/
inductive KeyType where
  | string
  | number
  | binary
deriving DecidableEq

def KeyValue.HasType : KeyValue → KeyType → Prop
  | .string _, type => type = .string
  | .number value, type => type = .number ∧ Exact value
  | .binary _, type => type = .binary

def Uniform (range : String) (type : KeyType) (items : List Json) : Prop :=
  ∀ item ∈ items, ∃ typed value, item.get range = some typed ∧
    keyValue typed = some value ∧ value.HasType type

/-- **The texts compare like the values**: an item satisfies the condition if its value does, and two
items that satisfy it and differ are in the order of their values. -/
def Faithful (range : String) (cond : KeyCondition) (items : List Json) : Prop :=
  (∀ item ∈ items, cond.holds item = true ↔ Answers range cond item) ∧
  ∀ first ∈ items, ∀ second ∈ items, cond.holds first = true → cond.holds second = true →
    rangeOrder range first second = .lt → Precedes range first second

/-! ### Texts and values -/

theorem linearOrder_swap {κ : Type} [LinearOrder κ] (first second : κ) :
    (linearOrder first second).swap = linearOrder second first :=
  cmp_swap first second

theorem linearOrder_le {κ : Type} [LinearOrder κ] {first second : κ} :
    (linearOrder first second != .gt) = true ↔ first ≤ second := by
  have gt : linearOrder first second = .gt ↔ second < first := cmp_eq_gt_iff first second
  rw [bne_iff_ne, Ne, gt, not_lt]

theorem bytesOrder_swap (first second : List UInt8) :
    (bytesOrder first second).swap = bytesOrder second first :=
  linearOrder_swap _ _

theorem bytesOrder_self (bytes : List UInt8) : bytesOrder bytes bytes = .eq :=
  cmp_self_eq_eq (bytes.map UInt8.toNat)

theorem bytesOrder_eq {first second : List UInt8} (same : bytesOrder first second = .eq) :
    first = second := by
  have lists := (cmp_eq_eq_iff _ _).mp same
  exact List.map_injective_iff.mpr (fun _ _ equal => UInt8.toNat_inj.mp equal) lists

theorem keyValue_some {typed : Json} {value : KeyValue} (found : keyValue typed = some value) :
    ∃ text, (typed = .obj [("S", .str text)] ∧ value = .string text) ∨
      (∃ number, typed = .obj [("N", .str text)] ∧ parseDecimal text = some number ∧
        value = .number number) ∨
      ∃ bytes, typed = .obj [("B", .str text)] ∧ standardDecode text = some bytes ∧
        value = .binary bytes := by
  unfold keyValue at found
  split at found
  · rename_i type text
    refine ⟨text, ?_⟩
    split at found
    · rename_i string
      cases found
      exact Or.inl ⟨by rw [string], rfl⟩
    · split at found
      · rename_i number
        obtain ⟨value, parsed, rfl⟩ := Option.map_eq_some_iff.mp found
        exact Or.inr (Or.inl ⟨value, by rw [number], parsed, rfl⟩)
      · split at found
        · rename_i binary
          obtain ⟨bytes, decoded, rfl⟩ := Option.map_eq_some_iff.mp found
          exact Or.inr (Or.inr ⟨bytes, by rw [binary], decoded, rfl⟩)
        · cases found
  · cases found

theorem typedText_single (type text other : String) :
    typedText (.obj [(type, .str text)]) other = if other = type then some text else none := by
  by_cases same : other = type
  · subst same
    simp [typedText, Json.get, Json.asStr]
  · have differs : (other == type) = false := beq_false_of_ne same
    simp [typedText, Json.get, List.lookup, differs, same]

theorem parseF64_exact {text : String} {number : ℚ} (parsed : parseDecimal text = some number)
    (exact : Exact number) : parseF64 text = some (.finite number) := by
  unfold parseF64
  rw [parsed]
  exact congrArg some (round_exact exact)

/-- The comparison of two values of one type, which are not binary. -/
theorem compareValues_plain {x y : Json} {v w : KeyValue} {type : KeyType}
    (foundX : keyValue x = some v) (foundY : keyValue y = some w) (typeX : v.HasType type)
    (typeY : w.HasType type) (plain : type ≠ .binary) : compareValues x y = v.order w := by
  obtain ⟨text, ⟨rfl, rfl⟩ | ⟨number, rfl, parsed, rfl⟩ | ⟨bytes, rfl, _, rfl⟩⟩ :=
    keyValue_some foundX
  · obtain ⟨other, ⟨rfl, rfl⟩ | ⟨number, rfl, _, rfl⟩ | ⟨bytes, rfl, _, rfl⟩⟩ := keyValue_some foundY
    · simp [compareValues, typedText_single, KeyValue.order]
    · cases typeX.symm.trans typeY.1
    · exact absurd typeY plain
  · obtain ⟨other, ⟨rfl, rfl⟩ | ⟨otherNumber, rfl, parsedToo, rfl⟩ | ⟨bytes, rfl, _, rfl⟩⟩ :=
      keyValue_some foundY
    · cases typeX.1.symm.trans typeY
    · simp [compareValues, typedText_single, KeyValue.order, parseF64_exact parsed typeX.2,
        parseF64_exact parsedToo typeY.2, F64.partialCmp]
    · exact absurd typeY plain
  · exact absurd typeX plain

/-- The comparison of two binary values is that of their texts. -/
theorem compareValues_binary {x y : Json} {v w : KeyValue} (foundX : keyValue x = some v)
    (foundY : keyValue y = some w) (typeX : v.HasType .binary) (typeY : w.HasType .binary) :
    ∃ text other bytes more, x = .obj [("B", .str text)] ∧ y = .obj [("B", .str other)] ∧
      standardDecode text = some bytes ∧ standardDecode other = some more ∧
      v = .binary bytes ∧ w = .binary more ∧
      compareValues x y = some (bytesOrder (utf8 text) (utf8 other)) := by
  obtain ⟨text, ⟨rfl, rfl⟩ | ⟨number, rfl, _, rfl⟩ | ⟨bytes, rfl, decoded, rfl⟩⟩ :=
    keyValue_some foundX
  · cases typeX
  · cases typeX.1
  · obtain ⟨other, ⟨rfl, rfl⟩ | ⟨number, rfl, _, rfl⟩ | ⟨more, rfl, decodedToo, rfl⟩⟩ :=
      keyValue_some foundY
    · cases typeY
    · cases typeY.1
    · exact ⟨text, other, bytes, more, rfl, rfl, decoded, decodedToo, rfl, rfl,
        by simp [compareValues, typedText_single]⟩

theorem KeyValue.order_self {value : KeyValue} : value.order value = some .eq := by
  cases value with
  | string text => exact congrArg some (bytesOrder_self _)
  | number value => exact congrArg some (cmp_self_eq_eq value)
  | binary bytes => exact congrArg some (bytesOrder_self _)

section Items

variable {range : String} {type : KeyType} {items : List Json} {first second : Json}

theorem rangeOrder_eq {x y : Json} (foundX : first.get range = some x)
    (foundY : second.get range = some y) :
    rangeOrder range first second = (compareValues x y).getD .eq := by
  unfold rangeOrder
  rw [foundX, foundY]

/-- **Items that compare equal have equal values.** -/
theorem precedes_of_tie (uniform : Uniform range type items) (memberFirst : first ∈ items)
    (memberSecond : second ∈ items) (tie : rangeOrder range first second = .eq) :
    Precedes range first second := by
  obtain ⟨x, v, foundX, valueX, typeX⟩ := uniform first memberFirst
  obtain ⟨y, w, foundY, valueY, typeY⟩ := uniform second memberSecond
  rw [rangeOrder_eq foundX foundY] at tie
  by_cases binary : type = .binary
  · subst binary
    obtain ⟨text, other, bytes, more, rfl, rfl, decoded, decodedToo, rfl, rfl, compared⟩ :=
      compareValues_binary valueX valueY typeX typeY
    rw [compared] at tie
    have same := utf8_injective (bytesOrder_eq tie)
    subst same
    cases decoded.symm.trans decodedToo
    exact ⟨_, _, _, _, .eq, foundX, foundY, valueX, valueY, KeyValue.order_self, by decide⟩
  · have compared := compareValues_plain valueX valueY typeX typeY binary
    cases order : v.order w with
    | some result =>
      rw [compared, order] at tie
      exact ⟨x, y, v, w, result, foundX, foundY, valueX, valueY, order, by simp [show result = .eq from tie]⟩
    | none =>
      cases v with
      | string text =>
        cases w with
        | string other => cases order
        | number value => cases typeX.symm.trans typeY.1
        | binary bytes => exact absurd typeY binary
      | number value =>
        cases w with
        | string other => cases typeX.1.symm.trans typeY
        | number other => cases order
        | binary bytes => exact absurd typeY binary
      | binary bytes => exact absurd typeX binary

/-- Items that are not binary are in the order of their values. -/
theorem precedes_of_plain (uniform : Uniform range type items) (plain : type ≠ .binary)
    (memberFirst : first ∈ items) (memberSecond : second ∈ items)
    (before : rangeOrder range first second = .lt) : Precedes range first second := by
  obtain ⟨x, v, foundX, valueX, typeX⟩ := uniform first memberFirst
  obtain ⟨y, w, foundY, valueY, typeY⟩ := uniform second memberSecond
  rw [rangeOrder_eq foundX foundY, compareValues_plain valueX valueY typeX typeY plain] at before
  cases order : v.order w with
  | some result =>
    rw [order] at before
    exact ⟨x, y, v, w, result, foundX, foundY, valueX, valueY, order, by simp [show result = .lt from before]⟩
  | none =>
    rw [order] at before
    cases before

/-! ### Sorting -/

/-- **A sort by a rank is in its order.** -/
theorem sortItems_ranked {κ : Type} [LinearOrder κ] (rank : Json → κ)
    (agrees : ∀ first ∈ items, ∀ second ∈ items,
      rangeOrder range first second = linearOrder (rank first) (rank second)) :
    (sortItems range items).Pairwise fun first second => rangeOrder range first second ≠ .gt := by
  let le : Json → Json → Bool := fun first second => linearOrder (rank first) (rank second) != .gt
  have same : sortItems range items = items.mergeSort le := by
    have mapped := @List.map_mergeSort _ _ (fun first second => rangeOrder range first second != .gt)
      le id items fun first memberFirst second memberSecond => by
        simp only [le, id, agrees first memberFirst second memberSecond]
    rwa [List.map_id, List.map_id] at mapped
  have sorted : (items.mergeSort le).Pairwise fun first second => le first second = true := by
    refine List.pairwise_mergeSort (fun a b c ab bc => ?_) (fun a b => ?_) items
    · exact linearOrder_le.mpr ((linearOrder_le.mp ab).trans (linearOrder_le.mp bc))
    · rcases le_total (rank a) (rank b) with less | more
      · rw [show le a b = true from linearOrder_le.mpr less, Bool.true_or]
      · rw [show le b a = true from linearOrder_le.mpr more, Bool.or_true]
  rw [same]
  refine sorted.imp_of_mem fun {first second} memberFirst memberSecond ordered => ?_
  rw [agrees first (List.mem_mergeSort.mp memberFirst) second (List.mem_mergeSort.mp memberSecond)]
  exact bne_iff_ne.mp ordered

/-- The bytes of the text of the range attribute. -/
def textRank (range type : String) (item : Json) : List ℕ :=
  (utf8 (((item.get range).bind fun value => typedText value type).getD "")).map UInt8.toNat

/-- The number of the range attribute. -/
def numberRank (range : String) (item : Json) : ℚ :=
  (((item.get range).bind fun value => typedText value "N").bind parseDecimal).getD 0

/-- **The items of a query are sorted as they compare.** -/
theorem sortItems_ordered (uniform : Uniform range type items) :
    (sortItems range items).Pairwise fun first second => rangeOrder range first second ≠ .gt := by
  cases type with
  | string =>
    refine sortItems_ranked (textRank range "S") fun first memberFirst second memberSecond => ?_
    obtain ⟨x, v, foundX, valueX, typeX⟩ := uniform first memberFirst
    obtain ⟨y, w, foundY, valueY, typeY⟩ := uniform second memberSecond
    obtain ⟨text, ⟨rfl, rfl⟩ | ⟨number, rfl, _, rfl⟩ | ⟨bytes, rfl, _, rfl⟩⟩ := keyValue_some valueX
    · obtain ⟨other, ⟨rfl, rfl⟩ | ⟨number, rfl, _, rfl⟩ | ⟨bytes, rfl, _, rfl⟩⟩ :=
        keyValue_some valueY
      · rw [rangeOrder_eq foundX foundY]
        simp [compareValues, typedText_single, textRank, foundX, foundY, bytesOrder]
      · cases typeY.1
      · cases typeY
    · cases typeX.1
    · cases typeX
  | number =>
    refine sortItems_ranked (numberRank range) fun first memberFirst second memberSecond => ?_
    obtain ⟨x, v, foundX, valueX, typeX⟩ := uniform first memberFirst
    obtain ⟨y, w, foundY, valueY, typeY⟩ := uniform second memberSecond
    obtain ⟨text, ⟨rfl, rfl⟩ | ⟨number, rfl, parsed, rfl⟩ | ⟨bytes, rfl, _, rfl⟩⟩ :=
      keyValue_some valueX
    · cases typeX
    · obtain ⟨other, ⟨rfl, rfl⟩ | ⟨more, rfl, parsedToo, rfl⟩ | ⟨bytes, rfl, _, rfl⟩⟩ :=
        keyValue_some valueY
      · cases typeY
      · rw [rangeOrder_eq foundX foundY]
        simp [compareValues, typedText_single, numberRank, foundX, foundY, parsed, parsedToo,
          parseF64_exact parsed typeX.2, parseF64_exact parsedToo typeY.2, F64.partialCmp, linearOrder]
      · cases typeY
    · cases typeX
  | binary =>
    refine sortItems_ranked (textRank range "B") fun first memberFirst second memberSecond => ?_
    obtain ⟨x, v, foundX, valueX, typeX⟩ := uniform first memberFirst
    obtain ⟨y, w, foundY, valueY, typeY⟩ := uniform second memberSecond
    obtain ⟨text, other, bytes, more, rfl, rfl, _, _, rfl, rfl, compared⟩ :=
      compareValues_binary valueX valueY typeX typeY
    rw [rangeOrder_eq foundX foundY, compared]
    simp [typedText_single, textRank, foundX, foundY, bytesOrder]

end Items

/-! ### Conditions on values that are not binary -/

/-- The operands are values of the type. -/
def SortCond.Operands (type : KeyType) : SortCond → Prop
  | .cmp _ right => ∃ value, keyValue right = some value ∧ value.HasType type
  | .between low high => (∃ value, keyValue low = some value ∧ value.HasType type) ∧
      ∃ value, keyValue high = some value ∧ value.HasType type
  | .beginsWith start => ∃ value, keyValue start = some value ∧ value.HasType type

theorem any_order {order : Option Ordering} {op : String} :
    order.any (opHolds op) = true ↔ ∃ result, order = some result ∧ opHolds op result = true := by
  cases order with
  | none => simp
  | some result => simp

theorem opHolds_ge {order : Ordering} : opHolds ">=" order = true ↔ order ≠ .lt := by
  cases order <;> decide

theorem opHolds_le {order : Ordering} : opHolds "<=" order = true ↔ order ≠ .gt := by
  cases order <;> decide

/-- **A text satisfies a condition if its value does.** -/
theorem holds_iff_admits {sort : SortCond} {typed : Json} {value : KeyValue} {type : KeyType}
    (found : keyValue typed = some value) (own : value.HasType type) (plain : type ≠ .binary)
    (operands : sort.Operands type) : sort.holds typed = true ↔ sort.Admits value := by
  cases sort with
  | cmp op right =>
    obtain ⟨other, valueRight, typeRight⟩ := operands
    simp only [SortCond.holds, SortCond.Admits, any_order]
    rw [compareValues_plain found valueRight own typeRight plain, valueRight]
    simp
  | between low high =>
    obtain ⟨⟨least, valueLow, typeLow⟩, most, valueHigh, typeHigh⟩ := operands
    simp only [SortCond.holds, SortCond.Admits, Bool.and_eq_true, any_order]
    rw [compareValues_plain found valueLow own typeLow plain,
      compareValues_plain found valueHigh own typeHigh plain, valueLow, valueHigh]
    constructor
    · rintro ⟨⟨above, orderLow, atLeast⟩, below, orderHigh, atMost⟩
      exact ⟨least, most, above, below, rfl, rfl, orderLow, opHolds_ge.mp atLeast, orderHigh,
        opHolds_le.mp atMost⟩
    · rintro ⟨_, _, above, below, ⟨⟩, ⟨⟩, orderLow, atLeast, orderHigh, atMost⟩
      exact ⟨⟨above, orderLow, opHolds_ge.mpr atLeast⟩, below, orderHigh, opHolds_le.mpr atMost⟩
  | beginsWith start =>
    obtain ⟨other, valueStart, typeStart⟩ := operands
    simp only [SortCond.holds, SortCond.Admits, valueStart]
    obtain ⟨text, ⟨rfl, rfl⟩ | ⟨number, rfl, _, rfl⟩ | ⟨bytes, rfl, _, rfl⟩⟩ := keyValue_some found
    · obtain ⟨start, ⟨rfl, rfl⟩ | ⟨number, rfl, _, rfl⟩ | ⟨bytes, rfl, _, rfl⟩⟩ :=
        keyValue_some valueStart
      · simp [typedText_single, KeyValue.startsWith, startsWith]
      · cases own.symm.trans typeStart.1
      · exact absurd typeStart plain
    · simp [typedText_single, KeyValue.startsWith]
    · exact absurd own plain

/-! ### Answers -/

section External

variable [External] {store : DynamoStore} {tableName range : String} {table : DynamoTable}
  {cond : KeyCondition} {type : KeyType}

/-- What a query gives: the items that satisfy the condition, sorted, turned and cut off. -/
theorem queryParsed_ok (found : findTable store tableName = some table)
    (ranged : keyName table.keySchema "RANGE" = some range)
    (keyed : ∀ name sort, cond.sort = some (name, sort) → name = range)
    (scanIndexForward : Option Bool) (limit : Option Nat) :
    ∃ count, queryParsed store tableName cond scanIndexForward limit =
      .ok (
        let sorted := sortItems range ((scanAll store tableName).filter cond.holds)
        let turned := if scanIndexForward = some false then sorted.reverse else sorted
        match limit with
        | some limit => turned.take limit
        | none => turned, count) := by
  have passes : ((cond.sort.map Prod.fst).any fun sk => (some range).any fun range => sk != range) =
      false := by
    cases sort : cond.sort with
    | none => rfl
    | some sort => simp [keyed _ _ sort]
  refine ⟨((scanAll store tableName).filter cond.holds).length, ?_⟩
  simp only [queryParsed, found, ranged, passes, Bool.false_eq_true, if_false]

open Classical in
/-- **Faithful texts give the right answer.** -/
theorem isAnswer_of_faithful {items : List Json} (uniform : Uniform range type items)
    (faithful : Faithful range cond items) (scanIndexForward : Option Bool) (limit : Option Nat) :
    IsAnswer range cond scanIndexForward limit items (
      let sorted := sortItems range (items.filter cond.holds)
      let turned := if scanIndexForward = some false then sorted.reverse else sorted
      match limit with
      | some limit => turned.take limit
      | none => turned) := by
  have same : items.filter cond.holds = items.filter fun item => Answers range cond item := by
    refine List.filter_congr fun item member => ?_
    rw [Bool.eq_iff_iff, faithful.1 item member, decide_eq_true_iff]
  refine ⟨sortItems range (items.filter cond.holds), ?_, ?_, rfl⟩
  · rw [← same]
    exact List.mergeSort_perm _ _
  · have kept : Uniform range type (items.filter cond.holds) :=
      fun item member => uniform item (List.mem_of_mem_filter member)
    refine (sortItems_ordered kept).imp_of_mem fun {first second} memberFirst memberSecond ordered => ?_
    obtain ⟨inFirst, holdsFirst⟩ := List.mem_filter.mp (List.mem_mergeSort.mp memberFirst)
    obtain ⟨inSecond, holdsSecond⟩ := List.mem_filter.mp (List.mem_mergeSort.mp memberSecond)
    cases order : rangeOrder range first second with
    | lt => exact faithful.2 first inFirst second inSecond holdsFirst holdsSecond order
    | eq => exact precedes_of_tie uniform inFirst inSecond order
    | gt => exact absurd order ordered

theorem rangeOrder_swap {items : List Json} (uniform : Uniform range type items) {first second : Json}
    (memberFirst : first ∈ items) (memberSecond : second ∈ items) :
    (rangeOrder range first second).swap = rangeOrder range second first := by
  obtain ⟨x, v, foundX, valueX, typeX⟩ := uniform first memberFirst
  obtain ⟨y, w, foundY, valueY, typeY⟩ := uniform second memberSecond
  rw [rangeOrder_eq foundX foundY, rangeOrder_eq foundY foundX]
  by_cases binary : type = .binary
  · subst binary
    obtain ⟨text, other, _, _, rfl, rfl, _, _, _, _, compared⟩ :=
      compareValues_binary valueX valueY typeX typeY
    rw [compared]
    simp [compareValues, typedText_single, bytesOrder_swap]
  · rw [compareValues_plain valueX valueY typeX typeY binary,
      compareValues_plain valueY valueX typeY typeX binary]
    cases v with
    | string text =>
      cases w with
      | string other => exact bytesOrder_swap _ _
      | number value => cases typeX.symm.trans typeY.1
      | binary bytes => exact absurd typeY binary
    | number value =>
      cases w with
      | string other => cases typeX.1.symm.trans typeY
      | number other => exact cmp_swap value other
      | binary bytes => exact absurd typeY binary
    | binary bytes => exact absurd typeX binary

/-- **A right answer needs faithful texts.** -/
theorem faithful_of_isAnswer {items : List Json} (uniform : Uniform range type items)
    {scanIndexForward : Option Bool}
    (right : IsAnswer range cond scanIndexForward none items (
      let sorted := sortItems range (items.filter cond.holds)
      if scanIndexForward = some false then sorted.reverse else sorted)) :
    Faithful range cond items := by
  classical
  obtain ⟨ordered, permuted, precedes, same⟩ := right
  have sorted : sortItems range (items.filter cond.holds) = ordered := by
    by_cases backward : scanIndexForward = some false
    · simp only [if_pos backward] at same
      exact List.reverse_injective same
    · simp only [if_neg backward] at same
      exact same
  have members : ∀ item, item ∈ ordered ↔ item ∈ items ∧ cond.holds item = true := by
    intro item
    rw [← sorted, sortItems, List.mem_mergeSort, List.mem_filter]
  refine ⟨fun item member => ?_, ?_⟩
  · have answers := permuted.mem_iff (a := item)
    rw [members, List.mem_filter, decide_eq_true_iff] at answers
    exact ⟨fun holds => (answers.mp ⟨member, holds⟩).2, fun right => (answers.mpr ⟨member, right⟩).2⟩
  · intro first memberFirst second memberSecond holdsFirst holdsSecond before
    have kept : Uniform range type (items.filter cond.holds) :=
      fun item member => uniform item (List.mem_of_mem_filter member)
    have inOrder := sortItems_ordered kept
    rw [sorted] at inOrder
    have both := inOrder.and precedes
    have either : ordered.Pairwise fun a b =>
        (rangeOrder range a b ≠ .gt ∧ Precedes range a b) ∨
          rangeOrder range b a ≠ .gt ∧ Precedes range b a := both.imp Or.inl
    have differ : first ≠ second := by
      rintro rfl
      have swapped := rangeOrder_swap uniform memberFirst memberFirst
      rw [before] at swapped
      cases swapped
    have : Std.Symm fun a b =>
        (rangeOrder range a b ≠ .gt ∧ Precedes range a b) ∨
          rangeOrder range b a ≠ .gt ∧ Precedes range b a := ⟨fun _ _ => Or.symm⟩
    rcases either.forall ((members first).mpr ⟨memberFirst, holdsFirst⟩)
      ((members second).mpr ⟨memberSecond, holdsSecond⟩) differ with ⟨_, holds⟩ | ⟨later, _⟩
    · exact holds
    · -- the second one is not sorted before the first
      refine absurd ?_ later
      rw [← rangeOrder_swap uniform memberFirst memberSecond, before]
      rfl

/-- Strings and numbers are faithful. -/
theorem faithful_of_plain {items : List Json} (uniform : Uniform range type items)
    (plain : type ≠ .binary)
    (keyed : ∀ name sort, cond.sort = some (name, sort) → name = range ∧ sort.Operands type) :
    Faithful range cond items := by
  refine ⟨fun item member => ?_, fun first memberFirst second memberSecond _ _ before =>
    precedes_of_plain uniform plain memberFirst memberSecond before⟩
  obtain ⟨typed, value, found, valued, own⟩ := uniform item member
  unfold KeyCondition.holds Answers
  rw [Bool.and_eq_true, decide_eq_true_iff]
  refine and_congr_right fun _ => ?_
  cases condition : cond.sort with
  | none => simp
  | some entry =>
    obtain ⟨name, sort⟩ := entry
    obtain ⟨rfl, operands⟩ := keyed name sort condition
    have admits := holds_iff_admits valued own plain operands
    simp only [found, Option.any_some, admits]
    constructor
    · rintro admitted _ _ ⟨⟩
      exact ⟨typed, value, rfl, valued, admitted⟩
    · intro right
      obtain ⟨_, _, ⟨⟩, same, admitted⟩ := right _ _ rfl
      cases valued.symm.trans same
      exact admitted

end External

/-! ### Binary values out of order -/

section Sample

def rangeSchema : String :=
  "[\x7b\"AttributeName\":\"pk\",\"KeyType\":\"HASH\"\x7d," ++
    "\x7b\"AttributeName\":\"sk\",\"KeyType\":\"RANGE\"\x7d]"

/-- An item with a range value of a type. -/
def rangeItem (type text : String) : Json :=
  .obj [("pk", .obj [("S", .str "k")]), ("sk", .obj [(type, .str text)])]

def rangeItemText (type text : String) : String :=
  "\x7b\"pk\":\x7b\"S\":\"k\"\x7d,\"sk\":\x7b\"" ++ type ++ "\":\"" ++ text ++ "\"\x7d\x7d"

/-- `serde_json` on the schema and on these items. -/
@[reducible]
def queryJson : External where
  jsonFromStr text :=
    if text = rangeSchema then
      some (.arr [.obj [("AttributeName", .str "pk"), ("KeyType", .str "HASH")],
        .obj [("AttributeName", .str "sk"), ("KeyType", .str "RANGE")]])
    else
      ([("S", "b"), ("S", "a"), ("B", "AA=="), ("B", "+A==")].find? fun entry =>
        rangeItemText entry.1 entry.2 == text).map fun entry => rangeItem entry.1 entry.2
  jsonToString := External.sample.jsonToString
  sha256Hex := External.sample.sha256Hex
  md5Hex := External.sample.md5Hex
  parsesF64 := External.sample.parsesF64
  uuid := External.sample.uuid

attribute [local instance] queryJson

def rangeTable : DynamoTable where
  name := "t"
  keySchema := rangeSchema
  attributeDefinitions := "[]"
  createdAt := "now"

/-- A table with two items. -/
def rangeStore (type first second : String) : DynamoStore where
  tables := [rangeTable]
  items := [first, second].map fun text =>
    { tableName := "t", pk := "k", sk := text, item := rangeItemText type text, createdAt := "now" }

/-- Everything with the hash value. -/
def hashCondition (sort : Option (String × SortCond)) : KeyCondition where
  pkName := "pk"
  pkValue := .obj [("S", .str "k")]
  sort := sort

end Sample

end CloudTwin.Dynamodb
