/-
**A DynamoDB table as a map** (`aws/dynamodb/service.rs`: `put_item`, `get_item`, `delete_item`,
`update_item`, `batch_write`, `scan`).

A row stands under the JSON texts of its key attributes. As long as every key value is written in one
way, an update keeps the key attributes, and a scan is not cut off, the table is a map on key values.

* `ItemWrite`, `WriteRequest`, `writeStep`, `scan` — the requests, one after the other.
* `primaryKey`, `applyWrite` — the value of a key, and what a write does to a map.
* `OneSpelling`, `Spelled`, `KeepsKey` — the keys of a run.
* `Represents`, `represents_run` — the rows are the map, after every run.
* `table_map` — the reads and writes of a table are those of the map.
* `respelled_key_missing` — an item that is not found under an equal number.
-/

import CloudTwin.Dynamodb.Query
import CloudTwin.Dynamodb.Updates
import CloudTwin.JsonLaws

namespace CloudTwin.Dynamodb

open Lib Lib.Text

set_option linter.unusedSectionVars false

deriving instance DecidableEq for KeyValue

/-! ### Requests -/

/-- A write of one item. -/
inductive ItemWrite where
  | put (tableName : String) (item : Json)
  | delete (tableName : String) (key : Json)
  | update (tableName : String) (key : Json) (updateExpression : Option String)
      (values : Option Json)

namespace ItemWrite

def tableName : ItemWrite → String
  | .put tableName _ => tableName
  | .delete tableName _ => tableName
  | .update tableName _ _ _ => tableName

/-- The item or the key that the write names its row by. -/
def key : ItemWrite → Json
  | .put _ item => item
  | .delete _ key => key
  | .update _ key _ _ => key

def request : ItemWrite → DynamoRequest
  | .put tableName item => .putItem tableName item
  | .delete tableName key => .deleteItem tableName key
  | .update tableName key updateExpression values =>
    .updateItem tableName key updateExpression values

end ItemWrite

/-- One entry of a batch: a put, then a delete. -/
def entryWrites (tableName : String) (entry : Json) : List ItemWrite :=
  (((entry.get "PutRequest").bind fun put => put.get "Item").map (.put tableName)).toList ++
    (((entry.get "DeleteRequest").bind fun delete => delete.get "Key").map (.delete tableName)).toList

/-- The writes of `batch_write`, table by table. -/
def batchWrites (requestItems : Json) : List ItemWrite :=
  match requestItems with
  | .obj tables =>
    tables.flatMap fun (tableName, requests) =>
      match requests with
      | .arr entries => entries.flatMap (entryWrites tableName)
      | _ => []
  | _ => []

inductive WriteRequest where
  | single (write : ItemWrite)
  | batchWrite (requestItems : Json)

def WriteRequest.writes : WriteRequest → List ItemWrite
  | .single write => [write]
  | .batchWrite requestItems => batchWrites requestItems

section External

variable [External]

/-- The writes of a request, up to the first that fails. -/
def runWrites (now : String) : List ItemWrite → DynamoStore → DynamoStore
  | [], store => store
  | write :: rest, store =>
    match (DynamoTask.start write.request).alone now 4 store with
    | (some (.ok _), after) => runWrites now rest after
    | (_, after) => after

/-- **A whole request**, at a reading of the clock. -/
def writeStep (store : DynamoStore) (request : String × WriteRequest) : DynamoStore :=
  runWrites request.1 request.2.writes store

/-- `get_item`, as a whole request. -/
def getItem (store : DynamoStore) (tableName : String) (key : Json) :
    Option (Except DynamoError DynamoResponse) :=
  ((DynamoTask.start (.getItem tableName key)).alone "" 4 store).1

/-- `scan`: a limit below zero is none. -/
def scan (store : DynamoStore) (tableName : String) (limit : Option Int) : List Json :=
  let rows := store.items.filter fun row => row.tableName == tableName
  let limit := limit.getD 1000
  (if limit < 0 then rows else rows.take limit.toNat).filterMap fun row =>
    External.jsonFromStr row.item

/-! ### What a write does to the rows -/

variable {store : DynamoStore} {table : DynamoTable} {tableName : String}

theorem alone_put (now : String) (item : Json) (found : findTable store tableName = some table) :
    (DynamoTask.start (.putItem tableName item)).alone now 4 store =
      (some (.ok .done), storeItem store (itemRow table item now)) := by
  simp only [DynamoTask.alone, DynamoTask.run, DynamoRequest.run, withTable, found]

theorem alone_get (now : String) (key : Json) (found : findTable store tableName = some table) :
    (DynamoTask.start (.getItem tableName key)).alone now 4 store =
      (some (.ok (.item ((loadItem store table.name (extractKey table.keySchema key).1
        (extractKey table.keySchema key).2).map readItem))), store) := by
  simp only [DynamoTask.alone, DynamoTask.run, DynamoRequest.run, withTable, found]

theorem alone_delete (now : String) (key : Json) (found : findTable store tableName = some table) :
    (DynamoTask.start (.deleteItem tableName key)).alone now 4 store =
      (some (.ok .done), deleteItem store table.name (extractKey table.keySchema key).1
        (extractKey table.keySchema key).2) := by
  simp only [DynamoTask.alone, DynamoTask.run, DynamoRequest.run, withTable, found]

/-- The item that an update finds. -/
def existingText (store : DynamoStore) (table : DynamoTable) (key : Json) : Option String :=
  loadItem store table.name (extractKey table.keySchema key).1 (extractKey table.keySchema key).2

theorem alone_update (now : String) (update : ItemUpdate)
    (found : findTable store tableName = some table) :
    (DynamoTask.start (.updateItem tableName update.key update.updateExpression
        update.values)).alone now 4 store =
      (some (.ok (.item (some (update.result (existingText store table update.key))))),
        storeItem store (itemRow table
          (update.result (existingText store table update.key)) now)) := by
  have again : findTable store table.name = some table := by
    rw [findTable_name found]
    exact found
  simp only [DynamoTask.alone, DynamoTask.run, DynamoRequest.run, withTable, found, again,
    existingText]

/-- A write on a table that is not there fails, without an effect. -/
theorem alone_missing (now : String) (write : ItemWrite)
    (missing : findTable store write.tableName = none) :
    (DynamoTask.start write.request).alone now 4 store =
      (some (.error (.noTable write.tableName)), store) := by
  cases write <;>
    simp only [ItemWrite.tableName] at missing <;>
    simp only [ItemWrite.request, DynamoTask.alone, DynamoTask.run, DynamoRequest.run, withTable,
      missing, ItemWrite.tableName]

/-- What a write does to the rows. -/
def effect (store : DynamoStore) (table : DynamoTable) (now : String) : ItemWrite → DynamoStore
  | .put _ item => storeItem store (itemRow table item now)
  | .delete _ key =>
    deleteItem store table.name (extractKey table.keySchema key).1 (extractKey table.keySchema key).2
  | .update _ key updateExpression values =>
    storeItem store (itemRow table
      (ItemUpdate.result { key, updateExpression, values } (existingText store table key)) now)

theorem alone_effect (now : String) (write : ItemWrite)
    (found : findTable store write.tableName = some table) :
    ∃ response, (DynamoTask.start write.request).alone now 4 store =
      (some (.ok response), effect store table now write) := by
  cases write with
  | put tableName item => exact ⟨_, alone_put now item found⟩
  | delete tableName key => exact ⟨_, alone_delete now key found⟩
  | update tableName key updateExpression values =>
    exact ⟨_, alone_update now { key, updateExpression, values } found⟩

theorem effect_tables (store : DynamoStore) (table : DynamoTable) (now : String)
    (write : ItemWrite) : (effect store table now write).tables = store.tables := by
  cases write <;> rfl

/-! ### Rows after a put -/

/-- The constraint on `dynamo_items`: no two rows at one place. -/
def Unique (store : DynamoStore) : Prop :=
  store.items.Pairwise fun row other => ¬ other.IsAt row.tableName row.pk row.sk

theorem storeItem_unique {put : DynamoItem} (unique : Unique store) :
    Unique (storeItem store put) := by
  unfold Unique storeItem at *
  dsimp only
  split
  · rw [List.pairwise_map]
    refine unique.imp fun {row other} apart => ?_
    split <;> split <;> exact apart
  · rename_i free
    refine List.pairwise_append.mpr ⟨unique, List.pairwise_singleton _ _, fun row member last new => ?_⟩
    intro placed
    rw [List.mem_singleton.mp new] at placed
    obtain ⟨sameTable, samePk, sameSk⟩ := placed
    exact free (List.any_eq_true.mpr ⟨row, member,
      decide_eq_true ⟨sameTable.symm, samePk.symm, sameSk.symm⟩⟩)

theorem deleteItem_unique {pk sk : String} (unique : Unique store) :
    Unique (deleteItem store tableName pk sk) :=
  List.Pairwise.filter _ unique

theorem storeItem_keeps {put row : DynamoItem} (member : row ∈ store.items)
    (away : ¬ row.IsAt put.tableName put.pk put.sk) : row ∈ (storeItem store put).items := by
  simp only [storeItem]
  split
  · exact List.mem_map.mpr ⟨row, member, if_neg away⟩
  · exact List.mem_append_left _ member

theorem storeItem_there (store : DynamoStore) (put : DynamoItem) :
    ∃ row ∈ (storeItem store put).items, row.IsAt put.tableName put.pk put.sk ∧
      row.item = put.item := by
  simp only [storeItem]
  split
  · rename_i taken
    obtain ⟨row, member, placed⟩ := List.any_eq_true.mp taken
    have at_ := of_decide_eq_true placed
    exact ⟨{ row with item := put.item }, List.mem_map.mpr ⟨row, member, if_pos at_⟩, at_, rfl⟩
  · exact ⟨put, List.mem_append_right _ (List.mem_singleton.mpr rfl), ⟨rfl, rfl, rfl⟩, rfl⟩

theorem deleteItem_rows {row : DynamoItem} {pk sk : String} :
    row ∈ (deleteItem store tableName pk sk).items ↔
      row ∈ store.items ∧ ¬ row.IsAt tableName pk sk := by
  simp [deleteItem, List.mem_filter]

variable (laws : JsonLaws ‹External›)

include laws in
theorem readItem_printed {value : Json} (parsed : Parsed value) :
    readItem (External.jsonToString value) = value := by
  unfold readItem
  rw [laws.reads value parsed]
  rfl

/-! ### Setting a member -/

theorem lookup_filter (keep : String → Bool) {members : List (String × Json)} {name : String}
    (kept : keep name = true) :
    (members.filter fun member => keep member.1).lookup name = members.lookup name := by
  induction members with
  | nil => rfl
  | cons member rest ih =>
    obtain ⟨key, value⟩ := member
    by_cases same : name = key
    · subst same
      simp [kept]
    · have differs : (name == key) = false := beq_false_of_ne same
      rw [List.filter_cons]
      split
      · rw [List.lookup_cons, List.lookup_cons, differs]
        exact ih
      · rw [List.lookup_cons, differs]
        exact ih

theorem lookup_filter_none (keep : String → Bool) {members : List (String × Json)} {name : String}
    (dropped : keep name = false) :
    (members.filter fun member => keep member.1).lookup name = none := by
  rw [List.lookup_eq_none_iff]
  intro member there
  have held := (List.mem_filter.mp there).2
  rw [bne_iff_ne]
  intro same
  rw [same, held] at dropped
  cases dropped

/-- **`Map::insert`**: the member is set, and the others stay. -/
theorem get_setMember (members : List (String × Json)) (name other : String) (value : Json) :
    (Json.obj (setMember members name value)).get other =
      if other = name then some value else (Json.obj members).get other := by
  show (setMember members name value).lookup other = if other = name then some value else
    members.lookup other
  unfold setMember
  rw [List.lookup_append]
  rcases lt_trichotomy other name with below | same | above
  · rw [lookup_filter (fun key => decide (key < name)) (decide_eq_true below),
      if_neg below.ne]
    have rest : ((name, value) :: members.filter fun member => decide (name < member.1)).lookup other =
        none := by
      rw [List.lookup_cons, beq_false_of_ne below.ne]
      exact lookup_filter_none (fun key => decide (name < key))
        (decide_eq_false below.not_gt)
    rw [rest, Option.or_none]
  · subst same
    rw [lookup_filter_none (fun key => decide (key < other)) (decide_eq_false (lt_irrefl _)),
      if_pos rfl, Option.none_or, List.lookup_cons_self]
  · rw [lookup_filter_none (fun key => decide (key < name)) (decide_eq_false above.not_gt),
      if_neg above.ne', Option.none_or, List.lookup_cons, beq_false_of_ne above.ne']
    exact lookup_filter (fun key => decide (name < key)) (decide_eq_true above)

theorem setMember_keys {members : List (String × Json)} {name : String} {value : Json}
    (keys : (members.map Prod.fst).Pairwise (· < ·)) :
    ((setMember members name value).map Prod.fst).Pairwise (· < ·) := by
  rw [List.pairwise_map] at keys ⊢
  refine List.pairwise_append.mpr ⟨keys.filter _, ?_, ?_⟩
  · refine List.pairwise_cons.mpr ⟨fun member there => ?_, keys.filter _⟩
    exact of_decide_eq_true (List.mem_filter.mp there).2
  · intro first before second after
    have below : first.1 < name := of_decide_eq_true (List.mem_filter.mp before).2
    rcases List.mem_cons.mp after with rfl | above
    · exact below
    · exact below.trans (of_decide_eq_true (List.mem_filter.mp above).2)

theorem setMember_ordered {levels : Nat} {members : List (String × Json)} {name : String}
    {value : Json} (ordered : Ordered (levels + 1) (.obj members)) (held : Ordered levels value) :
    Ordered (levels + 1) (.obj (setMember members name value)) := by
  cases ordered with
  | obj _ keys values =>
    refine .obj _ (setMember_keys keys) fun member there => ?_
    rcases List.mem_append.mp there with before | after
    · exact values member (List.mem_filter.mp before).1
    rcases List.mem_cons.mp after with rfl | above
    · exact held
    · exact values member (List.mem_filter.mp above).1

/-! ### What an update sets -/

/-- The attribute that a part of the expression sets, and its value. -/
def assigned (values : Json) (part : String) : Option (String × Json) :=
  if '=' ∈ part.toList then
    (values.get (trim (String.ofList ((part.toList.dropWhile (· != '=')).drop 1)))).map fun value =>
      (trimStartMatches '#' (trim (beforeFirst '=' part)), value)
  else none

def assign (members : List (String × Json)) (assignment : Option (String × Json)) :
    List (String × Json) :=
  match assignment with
  | some (name, value) => setMember members name value
  | none => members

theorem applyPart_obj (values : Json) (members : List (String × Json)) (part : String) :
    applyPart values (.obj members) part = .obj (assign members (assigned values part)) := by
  unfold applyPart assigned
  split
  · cases found : values.get (trim (String.ofList ((part.toList.dropWhile (· != '=')).drop 1))) with
    | none => simp only [found]; rfl
    | some value => simp only [found]; rfl
  · rfl

/-- The parts of an expression. -/
def partsOf (updateExpression : String) : List String :=
  match (stripPrefix (trim updateExpression) "SET ").or
    (stripPrefix (trim updateExpression) "set ") with
  | some rest => split ',' rest
  | none => []

theorem applyUpdate_some (expression : String) (values item : Json) :
    applyUpdate (some expression) (some values) item =
      (partsOf expression).foldl (applyPart values) item := by
  simp only [applyUpdate, partsOf]
  generalize (stripPrefix (trim expression) "SET ").or (stripPrefix (trim expression) "set ") =
    stripped
  cases stripped with
  | none => rfl
  | some rest => rfl

/-- The assignments of an update. -/
def assignments (updateExpression : Option String) (values : Option Json) :
    List (String × Json) :=
  match updateExpression, values with
  | some expression, some values => (partsOf expression).filterMap (assigned values)
  | _, _ => []

theorem foldl_applyPart (values : Json) (parts : List String) :
    ∀ members, parts.foldl (applyPart values) (.obj members) =
      .obj ((parts.filterMap (assigned values)).foldl
        (fun members assignment => setMember members assignment.1 assignment.2) members) := by
  induction parts with
  | nil => exact fun members => rfl
  | cons part rest ih =>
    intro members
    rw [List.foldl_cons, applyPart_obj, ih]
    cases found : assigned values part with
    | none => rw [List.filterMap_cons_none found]; rfl
    | some assignment => rw [List.filterMap_cons_some found]; rfl

/-- **An update sets its assignments, one after the other.** -/
theorem applyUpdate_obj (updateExpression : Option String) (values : Option Json)
    (members : List (String × Json)) :
    applyUpdate updateExpression values (.obj members) =
      .obj ((assignments updateExpression values).foldl
        (fun members assignment => setMember members assignment.1 assignment.2) members) := by
  cases updateExpression with
  | none => rfl
  | some expression =>
    cases values with
    | none => rfl
    | some values =>
      rw [applyUpdate_some]
      exact foldl_applyPart values _ members

/-- The value of an attribute after the assignments: that of the last one, or the old one. -/
def lastValue (assignments : List (String × Json)) (name : String) (old : Option Json) :
    Option Json :=
  assignments.foldl (fun held assignment => if name = assignment.1 then some assignment.2 else held) old

theorem get_assignments (name : String) (assignments : List (String × Json)) :
    ∀ members, (Json.obj (assignments.foldl
      (fun members assignment => setMember members assignment.1 assignment.2) members)).get name =
        lastValue assignments name ((Json.obj members).get name) := by
  induction assignments with
  | nil => exact fun members => rfl
  | cons assignment rest ih =>
    intro members
    rw [List.foldl_cons, ih, get_setMember]
    rfl

theorem assignments_ordered {levels : Nat} {assignments : List (String × Json)}
    (values : ∀ assignment ∈ assignments, Ordered levels assignment.2) :
    ∀ members, Ordered (levels + 1) (.obj members) → Ordered (levels + 1) (.obj (assignments.foldl
      (fun members assignment => setMember members assignment.1 assignment.2) members)) := by
  induction assignments with
  | nil => exact fun members ordered => ordered
  | cons assignment rest ih =>
    intro members ordered
    exact ih (fun other there => values other (List.mem_cons_of_mem _ there)) _
      (setMember_ordered ordered (values assignment List.mem_cons_self))

/-- The assignments to an attribute that give it the value it has leave it alone. -/
theorem lastValue_kept {assignments : List (String × Json)} {name : String} {old : Option Json}
    (kept : ∀ assignment ∈ assignments, assignment.1 = name → old = some assignment.2) :
    lastValue assignments name old = old := by
  unfold lastValue
  induction assignments with
  | nil => rfl
  | cons assignment rest ih =>
    have head : (if name = assignment.1 then some assignment.2 else old) = old := by
      split
      · rename_i same
        exact (kept assignment List.mem_cons_self same.symm).symm
      · rfl
    rw [List.foldl_cons, head]
    exact ih fun other there => kept other (List.mem_cons_of_mem _ there)

theorem assigned_ordered {levels : Nat} {values : Json} {part : String}
    {assignment : String × Json} (ordered : Ordered (levels + 1) values)
    (found : assigned values part = some assignment) : Ordered levels assignment.2 := by
  unfold assigned at found
  split at found
  · obtain ⟨value, held, rfl⟩ := Option.map_eq_some_iff.mp found
    exact ordered.get held
  · cases found

theorem mem_assignments_ordered {levels : Nat} {updateExpression : Option String}
    {values : Option Json} (ordered : ∀ value ∈ values, Ordered (levels + 1) value) :
    ∀ assignment ∈ assignments updateExpression values, Ordered levels assignment.2 := by
  intro assignment there
  cases updateExpression with
  | none => cases there
  | some expression =>
    cases values with
    | none => cases there
    | some values =>
      obtain ⟨part, _, found⟩ := List.mem_filterMap.mp there
      exact assigned_ordered (ordered values rfl) found

/-! ### Keys -/

/-- The value of a primary key: of its partition key and of its sort key. -/
abbrev PrimaryKey := Option KeyValue × Option KeyValue

def hashName (keySchema : String) : String :=
  (keyName keySchema "HASH").getD "pk"

/-- The attribute is one of the key. -/
def IsKeyName (keySchema name : String) : Prop :=
  name = hashName keySchema ∨ keyName keySchema "RANGE" = some name

def primaryKey (keySchema : String) (item : Json) : PrimaryKey :=
  ((item.get (hashName keySchema)).bind keyValue,
    ((keyName keySchema "RANGE").bind item.get).bind keyValue)

/-- **Equal key values are written in one way.** -/
structure OneSpelling (spelling : Set Json) : Prop where
  ordered : ∀ value ∈ spelling, Parsed value
  once : Set.InjOn keyValue spelling

/-- The item has the attributes of the key, in this spelling. -/
structure Spelled (keySchema : String) (spelling : Set Json) (item : Json) : Prop where
  hash : ∃ value ∈ spelling, item.get (hashName keySchema) = some value
  range : ∀ name, keyName keySchema "RANGE" = some name →
    ∃ value ∈ spelling, item.get name = some value

section Keys

variable {keySchema : String} {spelling : Set Json} {item other : Json}

include laws in
theorem keyText_iff (one : OneSpelling spelling) {value another : Json} (first : value ∈ spelling)
    (second : another ∈ spelling) :
    keyText (some value) = keyText (some another) ↔
      (some value).bind keyValue = (some another).bind keyValue := by
  constructor
  · intro same
    rw [printed_injective laws (one.ordered value first) (one.ordered another second) same]
  · intro same
    rw [one.once first second same]

include laws in
/-- **The texts of two keys are equal if and only if their values are.** -/
theorem extractKey_iff (one : OneSpelling spelling) (first : Spelled keySchema spelling item)
    (second : Spelled keySchema spelling other) :
    extractKey keySchema item = extractKey keySchema other ↔
      primaryKey keySchema item = primaryKey keySchema other := by
  obtain ⟨value, valueIn, valueGet⟩ := first.hash
  obtain ⟨another, anotherIn, anotherGet⟩ := second.hash
  have hash := keyText_iff laws one valueIn anotherIn
  unfold extractKey primaryKey
  change (keyText (item.get (hashName keySchema)), _) = (keyText (other.get (hashName keySchema)), _) ↔ _
  rw [valueGet, anotherGet, Prod.mk.injEq, Prod.mk.injEq, hash]
  cases range : keyName keySchema "RANGE" with
  | none => simp only [Option.bind_none, and_true]
  | some name =>
    obtain ⟨sort, sortIn, sortGet⟩ := first.range name range
    obtain ⟨otherSort, otherSortIn, otherSortGet⟩ := second.range name range
    simp only [Option.bind_some, sortGet, otherSortGet]
    exact and_congr_right fun _ => keyText_iff laws one sortIn otherSortIn

/-- Items with equal keys have the same key attributes. -/
theorem key_attributes (one : OneSpelling spelling) (first : Spelled keySchema spelling item)
    (second : Spelled keySchema spelling other)
    (same : primaryKey keySchema item = primaryKey keySchema other) {name : String}
    (isKey : IsKeyName keySchema name) : item.get name = other.get name := by
  obtain ⟨hashes, ranges⟩ := Prod.mk.injEq _ _ _ _ ▸ same
  rcases isKey with rfl | range
  · obtain ⟨value, valueIn, valueGet⟩ := first.hash
    obtain ⟨another, anotherIn, anotherGet⟩ := second.hash
    rw [valueGet, anotherGet] at hashes ⊢
    rw [one.once valueIn anotherIn hashes]
  · obtain ⟨value, valueIn, valueGet⟩ := first.range name range
    obtain ⟨another, anotherIn, anotherGet⟩ := second.range name range
    simp only [range, Option.bind_some, valueGet, anotherGet] at ranges
    rw [valueGet, anotherGet, one.once valueIn anotherIn ranges]

/-- An item with the key attributes of another one has its key. -/
theorem spelled_of_same (second : Spelled keySchema spelling other)
    (same : ∀ name, IsKeyName keySchema name → item.get name = other.get name) :
    Spelled keySchema spelling item ∧ primaryKey keySchema item = primaryKey keySchema other := by
  have hash := same (hashName keySchema) (Or.inl rfl)
  refine ⟨⟨?_, fun name range => ?_⟩, ?_⟩
  · rw [hash]
    exact second.hash
  · rw [same name (Or.inr range)]
    exact second.range name range
  · unfold primaryKey
    rw [hash]
    cases range : keyName keySchema "RANGE" with
    | none => rfl
    | some name => simp only [Option.bind_some, same name (Or.inr range)]

end Keys

/-! ### The map of a table -/

/-- What a write does to the map. -/
def applyWrite (table : DynamoTable) (map : PrimaryKey → Option Json) (write : ItemWrite) :
    PrimaryKey → Option Json :=
  let key := primaryKey table.keySchema write.key
  if write.tableName = table.name then
    match write with
    | .put _ item => Function.update map key (some item)
    | .delete _ _ => Function.update map key none
    | .update _ given updateExpression values =>
      Function.update map key
        (some (applyUpdate updateExpression values ((map key).getD given)))
  else map

/-- The writes of a request whose tables are there, up to the first whose table is not. -/
def carriedOut (store : DynamoStore) (request : WriteRequest) : List ItemWrite :=
  request.writes.takeWhile fun write => (findTable store write.tableName).isSome

/-- What the requests do to the map. -/
def applyRequests (store : DynamoStore) (table : DynamoTable)
    (requests : List (String × WriteRequest)) (map : PrimaryKey → Option Json) :
    PrimaryKey → Option Json :=
  requests.foldl (fun map request => (carriedOut store request.2).foldl (applyWrite table) map) map

/-- No assignment of an update changes an attribute of the key. -/
def KeepsKey (keySchema : String) : ItemWrite → Prop
  | .update _ key updateExpression values =>
    ∀ assignment ∈ assignments updateExpression values,
      IsKeyName keySchema assignment.1 → key.get assignment.1 = some assignment.2
  | _ => True

/-- **The condition on a write**: its key is spelled as the others, and an update keeps the key. -/
structure Meets (keySchema : String) (spelling : Set Json) (write : ItemWrite) : Prop where
  spelled : Spelled keySchema spelling write.key
  ordered : Parsed write.key
  values : ∀ tableName key updateExpression values,
    write = .update tableName key updateExpression (some values) → Parsed values
  keeps : KeepsKey keySchema write

/-- **The rows of the table are the map.** -/
structure Represents (store : DynamoStore) (table : DynamoTable) (spelling : Set Json)
    (map : PrimaryKey → Option Json) : Prop where
  found : findTable store table.name = some table
  unique : Unique store
  row : ∀ row ∈ store.items, row.tableName = table.name → ∃ item,
    External.jsonFromStr row.item = some item ∧ Parsed item ∧
    Spelled table.keySchema spelling item ∧
    extractKey table.keySchema item = (row.pk, row.sk) ∧
    map (primaryKey table.keySchema item) = some item
  there : ∀ key item, map key = some item → ∃ row ∈ store.items, row.tableName = table.name ∧
    External.jsonFromStr row.item = some item ∧ primaryKey table.keySchema item = key

section Steps

variable {spelling : Set Json} {map : PrimaryKey → Option Json}

theorem isAt_of_extractKey {row : DynamoItem} {item : Json} (own : row.tableName = table.name)
    (placed : extractKey table.keySchema item = (row.pk, row.sk)) :
    row.IsAt table.name (extractKey table.keySchema item).1 (extractKey table.keySchema item).2 := by
  rw [placed]
  exact ⟨own, rfl, rfl⟩

include laws in
theorem represents_put (represents : Represents store table spelling map)
    (one : OneSpelling spelling) {item : Json} (ordered : Parsed item)
    (spelled : Spelled table.keySchema spelling item) (now : String) :
    Represents (storeItem store (itemRow table item now)) table spelling
      (Function.update map (primaryKey table.keySchema item) (some item)) where
  found := represents.found
  unique := storeItem_unique represents.unique
  row row member own := by
    rcases storeItem_rows member with ⟨old, away⟩ | ⟨placed, same⟩
    · obtain ⟨held, read, heldOrdered, heldSpelled, heldAt, mapped⟩ := represents.row row old own
      refine ⟨held, read, heldOrdered, heldSpelled, heldAt, ?_⟩
      have differ : primaryKey table.keySchema held ≠ primaryKey table.keySchema item := by
        intro equal
        have texts := (extractKey_iff laws one heldSpelled spelled).mpr equal
        have placed := isAt_of_extractKey own heldAt
        rw [texts] at placed
        exact away placed
      rw [Function.update_of_ne differ]
      exact mapped
    · refine ⟨item, ?_, ordered, spelled, ?_, Function.update_self ..⟩
      · rw [same]
        exact laws.reads item ordered
      · exact Prod.ext placed.2.1.symm placed.2.2.symm
  there key held mapped := by
    by_cases own : key = primaryKey table.keySchema item
    · rw [own, Function.update_self] at mapped
      obtain rfl := Option.some.inj mapped
      obtain ⟨row, member, placed, same⟩ := storeItem_there store (itemRow table item now)
      refine ⟨row, member, placed.1, ?_, own.symm⟩
      rw [same]
      exact laws.reads item ordered
    · rw [Function.update_of_ne own] at mapped
      obtain ⟨row, member, named, read, keyed⟩ := represents.there key held mapped
      refine ⟨row, storeItem_keeps member fun placed => own ?_, named, read, keyed⟩
      obtain ⟨again, readAgain, _, heldSpelled, heldAt, _⟩ := represents.row row member named
      obtain rfl := Option.some.inj (read.symm.trans readAgain)
      rw [← keyed]
      refine (extractKey_iff laws one heldSpelled spelled).mp ?_
      rw [heldAt]
      exact Prod.ext placed.2.1 placed.2.2

include laws in
theorem represents_delete (represents : Represents store table spelling map)
    (one : OneSpelling spelling) {key : Json} (spelled : Spelled table.keySchema spelling key) :
    Represents (deleteItem store table.name (extractKey table.keySchema key).1
        (extractKey table.keySchema key).2) table spelling
      (Function.update map (primaryKey table.keySchema key) none) where
  found := represents.found
  unique := deleteItem_unique represents.unique
  row row member own := by
    obtain ⟨old, away⟩ := deleteItem_rows.mp member
    obtain ⟨held, read, heldOrdered, heldSpelled, heldAt, mapped⟩ := represents.row row old own
    refine ⟨held, read, heldOrdered, heldSpelled, heldAt, ?_⟩
    have differ : primaryKey table.keySchema held ≠ primaryKey table.keySchema key := by
      intro equal
      have texts := (extractKey_iff laws one heldSpelled spelled).mpr equal
      exact away (texts ▸ isAt_of_extractKey own heldAt)
    rw [Function.update_of_ne differ]
    exact mapped
  there other held mapped := by
    by_cases own : other = primaryKey table.keySchema key
    · rw [own, Function.update_self] at mapped
      cases mapped
    · rw [Function.update_of_ne own] at mapped
      obtain ⟨row, member, named, read, keyed⟩ := represents.there other held mapped
      refine ⟨row, deleteItem_rows.mpr ⟨member, fun placed => own ?_⟩, named, read, keyed⟩
      obtain ⟨again, readAgain, _, heldSpelled, heldAt, _⟩ := represents.row row member named
      obtain rfl := Option.some.inj (read.symm.trans readAgain)
      rw [← keyed]
      refine (extractKey_iff laws one heldSpelled spelled).mp ?_
      rw [heldAt]
      exact Prod.ext placed.2.1 placed.2.2

/-- A write on another table leaves the map alone. -/
theorem represents_other {after : DynamoStore} (represents : Represents store table spelling map)
    (tables : after.tables = store.tables) (unique : Unique after)
    (rows : ∀ row, row.tableName = table.name → (row ∈ after.items ↔ row ∈ store.items)) :
    Represents after table spelling map where
  found := by
    unfold findTable
    rw [tables]
    exact represents.found
  unique := unique
  row row member own := represents.row row ((rows row own).mp member) own
  there key item mapped := by
    obtain ⟨row, member, named, read, keyed⟩ := represents.there key item mapped
    exact ⟨row, (rows row named).mpr member, named, read, keyed⟩

include laws in
/-- **What is found under a key** is what the map holds for its value. -/
theorem existing_represents (represents : Represents store table spelling map)
    (one : OneSpelling spelling) {key : Json} (spelled : Spelled table.keySchema spelling key) :
    (existingText store table key).map readItem = map (primaryKey table.keySchema key) := by
  unfold existingText loadItem
  cases found : store.items.find? fun row => row.IsAt table.name (extractKey table.keySchema key).1
      (extractKey table.keySchema key).2 with
  | none =>
    have absent := List.find?_eq_none.mp found
    symm
    rw [Option.map_none, Option.map_none, Option.eq_none_iff_forall_ne_some]
    intro item mapped
    obtain ⟨row, member, named, read, keyed⟩ := represents.there _ item mapped
    obtain ⟨again, readAgain, _, heldSpelled, heldAt, _⟩ := represents.row row member named
    obtain rfl := Option.some.inj (read.symm.trans readAgain)
    have texts := (extractKey_iff laws one heldSpelled spelled).mpr keyed
    exact absent row member (decide_eq_true (texts ▸ isAt_of_extractKey named heldAt))
  | some row =>
    have member := List.mem_of_find?_eq_some found
    have placed : row.IsAt table.name (extractKey table.keySchema key).1
        (extractKey table.keySchema key).2 := by simpa using List.find?_some found
    obtain ⟨item, read, _, heldSpelled, heldAt, mapped⟩ := represents.row row member placed.1
    have keyed : primaryKey table.keySchema item = primaryKey table.keySchema key := by
      refine (extractKey_iff laws one heldSpelled spelled).mp ?_
      rw [heldAt]
      exact Prod.ext placed.2.1 placed.2.2
    rw [← keyed, mapped, Option.map_some, Option.map_some]
    unfold readItem
    rw [read]
    rfl

/-- What an update writes has the key that it was given. -/
theorem update_keeps {item key : Json} (ordered : Parsed item)
    (spelled : Spelled table.keySchema spelling key)
    (same : ∀ name, IsKeyName table.keySchema name → item.get name = key.get name)
    {tableName : String} {updateExpression : Option String} {values : Option Json}
    (keeps : KeepsKey table.keySchema (.update tableName key updateExpression values))
    (valuesOrdered : ∀ value ∈ values, Parsed value) :
    Parsed (applyUpdate updateExpression values item) ∧
      ∀ name, IsKeyName table.keySchema name →
        (applyUpdate updateExpression values item).get name = key.get name := by
  obtain ⟨hash, _, hashGet⟩ := spelled.hash
  have itemGet := (same _ (Or.inl rfl)).trans hashGet
  cases item with
  | obj members =>
    rw [applyUpdate_obj]
    refine ⟨assignments_ordered (mem_assignments_ordered valuesOrdered) members ordered,
      fun name isKey => ?_⟩
    rw [get_assignments, same name isKey]
    refine lastValue_kept fun assignment member equal => ?_
    rw [← equal]
    exact keeps assignment member (equal ▸ isKey)
  | _ => cases itemGet

include laws in
/-- **A write on the table does to the rows what it does to the map.** -/
theorem represents_write (represents : Represents store table spelling map)
    (one : OneSpelling spelling) {write : ItemWrite} (own : write.tableName = table.name)
    (meets : Meets table.keySchema spelling write) (now : String) :
    Represents (effect store table now write) table spelling (applyWrite table map write) := by
  cases write with
  | put tableName item =>
    have applied : applyWrite table map (.put tableName item) =
        Function.update map (primaryKey table.keySchema item) (some item) := if_pos own
    rw [applied]
    exact represents_put laws represents one meets.ordered meets.spelled now
  | delete tableName key =>
    have applied : applyWrite table map (.delete tableName key) =
        Function.update map (primaryKey table.keySchema key) none := if_pos own
    rw [applied]
    exact represents_delete laws represents one meets.spelled
  | update tableName key updateExpression values =>
    have spelledKey : Spelled table.keySchema spelling key := meets.spelled
    have existing := existing_represents laws represents one spelledKey
    have base : Parsed ((map (primaryKey table.keySchema key)).getD key) ∧
        ∀ name, IsKeyName table.keySchema name →
          ((map (primaryKey table.keySchema key)).getD key).get name = key.get name := by
      cases mapped : map (primaryKey table.keySchema key) with
      | none => exact ⟨meets.ordered, fun _ _ => rfl⟩
      | some item =>
        obtain ⟨row, member, named, read, keyed⟩ := represents.there _ item mapped
        obtain ⟨again, readAgain, itemOrdered, itemSpelled, _⟩ := represents.row row member named
        obtain rfl := Option.some.inj (read.symm.trans readAgain)
        exact ⟨itemOrdered, fun name isKey => key_attributes one itemSpelled spelledKey keyed isKey⟩
    obtain ⟨ordered, same⟩ := update_keeps base.1 spelledKey base.2 meets.keeps
      fun value there => meets.values tableName key updateExpression value (by rw [← there])
    obtain ⟨spelled, keyed⟩ := spelled_of_same spelledKey same
    have applied : applyWrite table map (.update tableName key updateExpression values) =
        Function.update map (primaryKey table.keySchema key)
          (some (applyUpdate updateExpression values
            ((map (primaryKey table.keySchema key)).getD key))) := if_pos own
    have written : effect store table now (.update tableName key updateExpression values) =
        storeItem store (itemRow table (applyUpdate updateExpression values
          ((map (primaryKey table.keySchema key)).getD key)) now) := by
      simp only [effect, ItemUpdate.result, existing]
    rw [applied, written]
    have put := represents_put laws represents one ordered spelled now
    rw [keyed] at put
    exact put

/-- A write on another table. -/
theorem represents_elsewhere (represents : Represents store table spelling map)
    {write : ItemWrite} {other : DynamoTable} (named : other.name = write.tableName)
    (away : write.tableName ≠ table.name) (now : String) :
    Represents (effect store other now write) table spelling (applyWrite table map write) := by
  have same : applyWrite table map write = map := if_neg away
  have apart {row : DynamoItem} (own : row.tableName = table.name) (pk sk : String) :
      ¬ row.IsAt other.name pk sk :=
    fun placed => away (by rw [← named, ← placed.1, own])
  have put (item : Json) (row : DynamoItem) (own : row.tableName = table.name) :
      row ∈ (storeItem store (itemRow other item now)).items ↔ row ∈ store.items := by
    refine ⟨fun member => ?_, fun member => storeItem_keeps member (apart own _ _)⟩
    rcases storeItem_rows member with old | new
    · exact old.1
    · exact absurd new.1 (apart own _ _)
  rw [same]
  refine represents_other represents (effect_tables ..) ?_ ?_
  · cases write with
    | put tableName item => exact storeItem_unique represents.unique
    | delete tableName key => exact deleteItem_unique represents.unique
    | update tableName key updateExpression values => exact storeItem_unique represents.unique
  · intro row own
    cases write with
    | put tableName item => exact put item row own
    | delete tableName key =>
      exact deleteItem_rows.trans (and_iff_left (apart own _ _))
    | update tableName key updateExpression values => exact put _ row own

/-- The condition on a request: every write on the table meets it. -/
def MeetsAll (table : DynamoTable) (spelling : Set Json) (request : WriteRequest) : Prop :=
  ∀ write ∈ request.writes, write.tableName = table.name → Meets table.keySchema spelling write

include laws in
/-- **The writes of a request**, up to the first whose table is not there. -/
theorem represents_writes (one : OneSpelling spelling) (now : String) (tables : List DynamoTable)
    (writes : List ItemWrite)
    (meets : ∀ write ∈ writes, write.tableName = table.name →
      Meets table.keySchema spelling write) :
    ∀ store map, store.tables = tables → Represents store table spelling map →
      (runWrites now writes store).tables = tables ∧
      Represents (runWrites now writes store) table spelling
        ((writes.takeWhile fun write => (findTable { store with tables } write.tableName).isSome).foldl
          (applyWrite table) map) := by
  induction writes with
  | nil => exact fun store map same represents => ⟨same, represents⟩
  | cons write rest ih =>
    rintro store map rfl represents
    cases found : findTable store write.tableName with
    | none =>
      have ran : runWrites now (write :: rest) store = store := by
        rw [runWrites, alone_missing now write found]
      have stopped : ((write :: rest).takeWhile fun write =>
          (findTable store write.tableName).isSome) = [] := by
        rw [List.takeWhile_cons_of_neg (by simp [found])]
      rw [ran]
      exact ⟨rfl, by rw [stopped]; exact represents⟩
    | some other =>
      obtain ⟨response, ran⟩ := alone_effect now write found
      have step : runWrites now (write :: rest) store =
          runWrites now rest (effect store other now write) := by
        rw [runWrites, ran]
      have goes : ((write :: rest).takeWhile fun write =>
          (findTable store write.tableName).isSome) =
            write :: rest.takeWhile fun write => (findTable store write.tableName).isSome :=
        List.takeWhile_cons_of_pos (by simp [found])
      have after : Represents (effect store other now write) table spelling
          (applyWrite table map write) := by
        by_cases own : write.tableName = table.name
        · have same : other = table := by
            rw [own, represents.found] at found
            exact (Option.some.inj found).symm
          subst same
          exact represents_write laws represents one own
            (meets write List.mem_cons_self own) now
        · exact represents_elsewhere represents (findTable_name found) own now
      have tail := ih (fun write there => meets write (List.mem_cons_of_mem _ there))
        (effect store other now write) _ (effect_tables ..) after
      rw [step]
      refine ⟨tail.1, ?_⟩
      rw [goes, List.foldl_cons]
      exact tail.2

include laws in
/-- **The rows are the map after every run.** -/
theorem represents_run (one : OneSpelling spelling) {start : DynamoStore}
    (requests : List (String × WriteRequest))
    (meets : ∀ request ∈ requests, MeetsAll table spelling request.2) :
    ∀ store map, store.tables = start.tables → Represents store table spelling map →
      (requests.foldl writeStep store).tables = start.tables ∧
      Represents (requests.foldl writeStep store) table spelling
        (applyRequests start table requests map) := by
  induction requests with
  | nil => exact fun store map same represents => ⟨same, represents⟩
  | cons request rest ih =>
    intro store map same represents
    have stepped := represents_writes laws one request.1 start.tables request.2.writes
      (meets request List.mem_cons_self) store map same represents
    exact ih (fun other there => meets other (List.mem_cons_of_mem _ there)) _ _ stepped.1 stepped.2

include laws in
theorem getItem_represents (represents : Represents store table spelling map)
    (one : OneSpelling spelling) {key : Json} (spelled : Spelled table.keySchema spelling key) :
    getItem store table.name key =
      some (.ok (.item (map (primaryKey table.keySchema key)))) := by
  unfold getItem
  rw [alone_get "" key represents.found, ← existing_represents laws represents one spelled]
  rfl

/-- The rows of the table. -/
def tableRows (store : DynamoStore) (table : DynamoTable) : List DynamoItem :=
  store.items.filter fun row => row.tableName == table.name

def rowKey (table : DynamoTable) (row : DynamoItem) : PrimaryKey :=
  primaryKey table.keySchema (readItem row.item)

theorem mem_tableRows {row : DynamoItem} :
    row ∈ tableRows store table ↔ row ∈ store.items ∧ row.tableName = table.name := by
  simp [tableRows, List.mem_filter]

/-- What the map holds for a row. -/
theorem represents_row (represents : Represents store table spelling map) {row : DynamoItem}
    (member : row ∈ tableRows store table) : ∃ item,
      External.jsonFromStr row.item = some item ∧ rowKey table row = primaryKey table.keySchema item ∧
      Spelled table.keySchema spelling item ∧
      extractKey table.keySchema item = (row.pk, row.sk) ∧ map (rowKey table row) = some item := by
  obtain ⟨there, own⟩ := mem_tableRows.mp member
  obtain ⟨item, read, _, spelled, placed, mapped⟩ := represents.row row there own
  have keyed : rowKey table row = primaryKey table.keySchema item := by
    unfold rowKey readItem
    rw [read]
    rfl
  exact ⟨item, read, keyed, spelled, placed, by rw [keyed]; exact mapped⟩

include laws in
theorem rowKeys_nodup (represents : Represents store table spelling map)
    (one : OneSpelling spelling) : ((tableRows store table).map (rowKey table)).Nodup := by
  refine List.pairwise_map.mpr ?_
  have unique : (tableRows store table).Pairwise fun row other =>
      ¬ other.IsAt row.tableName row.pk row.sk := represents.unique.filter _
  refine unique.imp_of_mem fun {row other} member otherMember apart same => apart ?_
  obtain ⟨item, _, keyed, spelled, placed, _⟩ := represents_row represents member
  obtain ⟨held, _, heldKeyed, heldSpelled, heldPlaced, _⟩ := represents_row represents otherMember
  have texts := (extractKey_iff laws one spelled heldSpelled).mpr (by rw [← keyed, ← heldKeyed, same])
  rw [placed, heldPlaced, Prod.mk.injEq] at texts
  exact ⟨(mem_tableRows.mp otherMember).2.trans (mem_tableRows.mp member).2.symm, texts.1.symm,
    texts.2.symm⟩

include laws in
/-- **A scan returns each live item once**, as long as it is not cut off. -/
theorem scan_represents (represents : Represents store table spelling map)
    (one : OneSpelling spelling) : ∃ keys : List PrimaryKey, keys.Nodup ∧
      (∀ key, key ∈ keys ↔ (map key).isSome) ∧
      (keys.length ≤ 1000 → scan store table.name none = keys.filterMap map) := by
  refine ⟨(tableRows store table).map (rowKey table), rowKeys_nodup laws represents one,
    fun key => ⟨fun member => ?_, fun live => ?_⟩, fun few => ?_⟩
  · obtain ⟨row, there, rfl⟩ := List.mem_map.mp member
    obtain ⟨item, _, _, _, _, mapped⟩ := represents_row represents there
    rw [mapped]
    rfl
  · obtain ⟨item, mapped⟩ := Option.isSome_iff_exists.mp live
    obtain ⟨row, there, own, read, keyed⟩ := represents.there key item mapped
    refine List.mem_map.mpr ⟨row, mem_tableRows.mpr ⟨there, own⟩, ?_⟩
    unfold rowKey readItem
    rw [read]
    exact keyed
  · rw [List.length_map] at few
    have whole : (tableRows store table).take 1000 = tableRows store table :=
      List.take_of_length_le few
    have scanned : scan store table.name none =
        ((tableRows store table).take 1000).filterMap fun row => External.jsonFromStr row.item := rfl
    rw [scanned, whole, List.filterMap_map]
    refine List.filterMap_congr fun row member => ?_
    obtain ⟨item, read, _, _, _, mapped⟩ := represents_row represents member
    rw [read]
    exact mapped.symm

/-- A write on another key leaves the value of this one. -/
theorem applyWrite_other {write : ItemWrite} {key : PrimaryKey}
    (away : write.tableName = table.name → primaryKey table.keySchema write.key ≠ key) :
    applyWrite table map write key = map key := by
  unfold applyWrite
  by_cases own : write.tableName = table.name
  · rw [if_pos own]
    have differ := (away own).symm
    cases write with
    | put tableName item => exact Function.update_of_ne differ _ _
    | delete tableName given => exact Function.update_of_ne differ _ _
    | update tableName given updateExpression values => exact Function.update_of_ne differ _ _
  · rw [if_neg own]

theorem applyWrites_other {key : PrimaryKey} (writes : List ItemWrite)
    (away : ∀ write ∈ writes, write.tableName = table.name →
      primaryKey table.keySchema write.key ≠ key) :
    ∀ map, writes.foldl (applyWrite table) map key = map key := by
  induction writes with
  | nil => exact fun map => rfl
  | cons write rest ih =>
    intro map
    rw [List.foldl_cons, ih fun other there => away other (List.mem_cons_of_mem _ there),
      applyWrite_other (away write List.mem_cons_self)]

include laws in
/-- **A table is a map on key values**: in a run whose writes meet the condition, a read returns what
was written last under an equal key and not deleted since, a scan of at most a thousand items returns
each of them once, and a request leaves the items under other keys alone. -/
theorem table_map {start : DynamoStore} (one : OneSpelling spelling) (fresh : start.items = [])
    (found : findTable start table.name = some table) (requests : List (String × WriteRequest))
    (meets : ∀ request ∈ requests, MeetsAll table spelling request.2) :
    (∀ key, Spelled table.keySchema spelling key →
      getItem (requests.foldl writeStep start) table.name key =
        some (.ok (.item (applyRequests start table requests (fun _ => none)
          (primaryKey table.keySchema key))))) ∧
    (∃ keys : List PrimaryKey, keys.Nodup ∧
      (∀ key, key ∈ keys ↔ (applyRequests start table requests (fun _ => none) key).isSome) ∧
      (keys.length ≤ 1000 → scan (requests.foldl writeStep start) table.name none =
        keys.filterMap (applyRequests start table requests fun _ => none))) ∧
    ∀ request, MeetsAll table spelling request.2 → ∀ key, Spelled table.keySchema spelling key →
      (∀ write ∈ request.2.writes, write.tableName = table.name →
        primaryKey table.keySchema write.key ≠ primaryKey table.keySchema key) →
      getItem (writeStep (requests.foldl writeStep start) request) table.name key =
        getItem (requests.foldl writeStep start) table.name key := by
  have empty : Represents start table spelling fun _ => none :=
    { found := found
      unique := by
        unfold Unique
        rw [fresh]
        exact List.Pairwise.nil
      row := fun row member => by
        rw [fresh] at member
        cases member
      there := fun key item mapped => by cases mapped }
  obtain ⟨tables, represents⟩ := represents_run laws one requests meets start _ rfl empty
  refine ⟨fun key spelled => getItem_represents laws represents one spelled,
    scan_represents laws represents one, fun request meetsLast key spelled away => ?_⟩
  have after := (represents_writes laws one request.1 start.tables request.2.writes meetsLast _ _
    tables represents).2
  rw [getItem_represents laws represents one spelled]
  refine (getItem_represents laws after one spelled).trans ?_
  rw [applyWrites_other]
  intro write there
  exact away write (List.takeWhile_subset _ there)

end Steps

end External

/-! ### A key that is found, and one that is not -/

section Sample

attribute [local instance] printedJson

def hashSchema : Json :=
  .arr [.obj [("AttributeName", .str "pk"), ("KeyType", .str "HASH")]]

def mapTable : DynamoTable where
  name := "t"
  keySchema := printJson hashSchema
  attributeDefinitions := "[]"
  createdAt := "now"

def mapStart : DynamoStore where
  tables := [mapTable]
  items := []

theorem mapTable_found : findTable mapStart "t" = some mapTable := rfl

/-- `{"pk": value}`. -/
def pkItem (value : Json) : Json :=
  .obj [("pk", value)]

theorem hashSchema_ordered : Parsed hashSchema := by
  refine .arr _ fun item there => ?_
  rw [List.mem_singleton.mp there]
  refine .obj _ (by decide) fun member there => ?_
  rcases List.mem_pair.mp there with rfl | rfl
  · exact .str _
  · exact .str _

theorem schemaOf_mapTable :
    schemaOf mapTable.keySchema = [.obj [("AttributeName", .str "pk"), ("KeyType", .str "HASH")]] := by
  have read : External.jsonFromStr mapTable.keySchema = some hashSchema :=
    printed_laws.reads hashSchema hashSchema_ordered
  unfold schemaOf
  rw [read]
  rfl

theorem hashName_mapTable : hashName mapTable.keySchema = "pk" := by
  unfold hashName keyName
  rw [schemaOf_mapTable]
  rfl

theorem rangeName_mapTable : keyName mapTable.keySchema "RANGE" = none := by
  unfold keyName
  rw [schemaOf_mapTable]
  rfl

theorem pkItem_ordered {levels : Nat} {value : Json} (ordered : Ordered levels value) :
    Ordered (levels + 1) (pkItem value) :=
  .obj _ (List.pairwise_singleton _ _) fun member there => by
    rw [List.mem_singleton.mp there]
    exact ordered

theorem typed_ordered {levels : Nat} (text : String) : Ordered (levels + 1) (typed text) :=
  .obj _ (List.pairwise_singleton _ _) fun member there => by
    rw [List.mem_singleton.mp there]
    exact .str text

theorem pkItem_spelled {spelling : Set Json} {value : Json} (there : value ∈ spelling) :
    Spelled mapTable.keySchema spelling (pkItem value) where
  hash := ⟨value, there, by rw [hashName_mapTable]; rfl⟩
  range name found := by
    rw [rangeName_mapTable] at found
    cases found

theorem primaryKey_pkItem (value : Json) :
    primaryKey mapTable.keySchema (pkItem value) = (keyValue value, none) := by
  unfold primaryKey
  rw [hashName_mapTable, rangeName_mapTable]
  rfl

theorem keyValue_typed (text : String) : keyValue (typed text) = some (.string text) := rfl

/-- Two items are put, and the first is deleted. -/
def sampleRequests : List (String × WriteRequest) :=
  [("1", .single (.put "t" (pkItem (typed "a")))), ("2", .single (.put "t" (pkItem (typed "k")))),
    ("3", .single (.delete "t" (pkItem (typed "a"))))]

theorem table_map_sample :
    getItem (sampleRequests.foldl writeStep mapStart) "t" (pkItem (typed "a")) = some (.ok (.item none)) ∧
      getItem (sampleRequests.foldl writeStep mapStart) "t" (pkItem (typed "k")) =
        some (.ok (.item (some (pkItem (typed "k"))))) := by
  have one : OneSpelling {typed "a", typed "k"} :=
    { ordered := fun value there => by
        rcases there with rfl | rfl
        · exact typed_ordered "a"
        · exact typed_ordered "k"
      once := by
        have text : ∀ value ∈ ({typed "a", typed "k"} : Set Json), ∃ text, value = typed text := by
          rintro value (rfl | rfl)
          · exact ⟨"a", rfl⟩
          · exact ⟨"k", rfl⟩
        intro first there second also same
        obtain ⟨one, rfl⟩ := text first there
        obtain ⟨two, rfl⟩ := text second also
        rw [keyValue_typed, keyValue_typed] at same
        cases same
        rfl }
  have first : typed "a" ∈ ({typed "a", typed "k"} : Set Json) := .inl rfl
  have second : typed "k" ∈ ({typed "a", typed "k"} : Set Json) := .inr rfl
  have meets : ∀ request ∈ sampleRequests, MeetsAll mapTable {typed "a", typed "k"} request.2 := by
    intro request there write member _
    simp only [sampleRequests, List.mem_cons, List.not_mem_nil, or_false] at there
    rcases there with rfl | rfl | rfl
    · rw [List.mem_singleton.mp member]
      exact ⟨pkItem_spelled first, pkItem_ordered (typed_ordered "a"),
        (fun _ _ _ _ same => by cases same), trivial⟩
    · rw [List.mem_singleton.mp member]
      exact ⟨pkItem_spelled second, pkItem_ordered (typed_ordered "k"),
        (fun _ _ _ _ same => by cases same), trivial⟩
    · rw [List.mem_singleton.mp member]
      exact ⟨pkItem_spelled first, pkItem_ordered (typed_ordered "a"),
        (fun _ _ _ _ same => by cases same), trivial⟩
  obtain ⟨read, -⟩ :=
    table_map printed_laws one (rfl : mapStart.items = []) mapTable_found sampleRequests meets
  have applied : applyRequests mapStart mapTable sampleRequests (fun _ => none) =
      Function.update (Function.update (Function.update (fun _ => none)
        (primaryKey mapTable.keySchema (pkItem (typed "a"))) (some (pkItem (typed "a"))))
        (primaryKey mapTable.keySchema (pkItem (typed "k"))) (some (pkItem (typed "k"))))
        (primaryKey mapTable.keySchema (pkItem (typed "a"))) none := rfl
  have apart : primaryKey mapTable.keySchema (pkItem (typed "k")) ≠
      primaryKey mapTable.keySchema (pkItem (typed "a")) := by
    rw [primaryKey_pkItem, primaryKey_pkItem, keyValue_typed, keyValue_typed]
    intro same
    exact absurd (KeyValue.string.inj (Option.some.inj (congrArg Prod.fst same))) (by decide)
  rw [applied] at read
  constructor
  · have gone := read _ (pkItem_spelled first)
    rwa [Function.update_self] at gone
  · have there := read _ (pkItem_spelled second)
    rwa [Function.update_of_ne apart, Function.update_self] at there

/-- `{"N": text}`. -/
def numbered (text : String) : Json :=
  .obj [("N", .str text)]

theorem extractKey_pkItem (value : Json) :
    extractKey mapTable.keySchema (pkItem value) = (printJson value, "") := by
  have hash : (keyName mapTable.keySchema "HASH").getD "pk" = "pk" := hashName_mapTable
  unfold extractKey
  rw [hash, rangeName_mapTable]
  rfl

/-- **An item is not found under an equal number.** -/
theorem respelled_key_missing :
    primaryKey mapTable.keySchema (pkItem (numbered "1.0")) =
        primaryKey mapTable.keySchema (pkItem (numbered "1")) ∧
      getItem (writeStep mapStart ("now", .single (.put "t" (pkItem (numbered "1"))))) "t"
        (pkItem (numbered "1.0")) = some (.ok (.item none)) := by
  constructor
  · have parsed : parseDecimal "1.0" = parseDecimal "1" := by decide +kernel
    rw [primaryKey_pkItem, primaryKey_pkItem]
    exact congrArg (fun value => (Option.map KeyValue.number value, none)) parsed
  · have stored : writeStep mapStart ("now", .single (.put "t" (pkItem (numbered "1")))) =
        storeItem mapStart (itemRow mapTable (pkItem (numbered "1")) "now") := by
      simp only [writeStep, WriteRequest.writes, runWrites, ItemWrite.request]
      rw [alone_put "now" _ mapTable_found]
    have rows : (storeItem mapStart (itemRow mapTable (pkItem (numbered "1")) "now")).items =
        [itemRow mapTable (pkItem (numbered "1")) "now"] := rfl
    have texts : printJson (numbered "1") ≠ printJson (numbered "1.0") := by decide
    have found : findTable (storeItem mapStart (itemRow mapTable (pkItem (numbered "1")) "now")) "t" =
        some mapTable := rfl
    rw [stored]
    unfold getItem
    rw [alone_get "" _ found, extractKey_pkItem]
    unfold loadItem
    rw [rows]
    have absent : ¬ (itemRow mapTable (pkItem (numbered "1")) "now").IsAt mapTable.name
        (printJson (numbered "1.0")) "" := by
      intro placed
      have same := placed.2.1
      simp only [itemRow, extractKey_pkItem] at same
      exact texts same
    rw [List.find?_cons_of_neg (by simpa using absent)]
    rfl

end Sample

end CloudTwin.Dynamodb
