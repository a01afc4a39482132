/-
**DynamoDB tables and items** (`aws/dynamodb/service.rs`).

A request is a sequence of calls on the database. An item is written under the name of its table and
the texts of its keys, in a call of its own; the table was looked up in an earlier call, and what the
update of an item goes by was read in another.

* `extractKey`, `applyUpdate` — the keys of an item, and the attributes that an update sets.
* `findTable`, `loadItem`, `storeItem`, … — the calls.
* `DynamoTask`, `DynamoTask.run` — the call that a request makes next, and where it leads.
-/

import CloudTwin.External
import CloudTwin.Lib.Tasks

namespace CloudTwin.Dynamodb

open Lib Lib.Text

set_option linter.unusedSectionVars false

/-! ### Rows -/

/-- A row of `dynamo_tables`. The schema and the definitions are JSON texts. -/
structure DynamoTable where
  name : String
  keySchema : String
  attributeDefinitions : String
  createdAt : String
deriving DecidableEq

/-- A row of `dynamo_items`. The item is a JSON text. -/
structure DynamoItem where
  tableName : String
  pk : String
  sk : String
  item : String
  createdAt : String
deriving DecidableEq

/-- The tables; `dynamo_items` in the order of its row ids. -/
structure DynamoStore where
  tables : List DynamoTable
  items : List DynamoItem
deriving DecidableEq

def DynamoStore.empty : DynamoStore where
  tables := []
  items := []

/-- The row has the three columns of the constraint on `dynamo_items`. -/
def DynamoItem.IsAt (row : DynamoItem) (tableName pk sk : String) : Prop :=
  row.tableName = tableName ∧ row.pk = pk ∧ row.sk = sk

instance (row : DynamoItem) (tableName pk sk : String) : Decidable (row.IsAt tableName pk sk) :=
  inferInstanceAs (Decidable (_ ∧ _))

/-! ### Single calls -/

/-- `get_table`. -/
def findTable (store : DynamoStore) (name : String) : Option DynamoTable :=
  store.tables.find? fun table => table.name == name

/-- The insert of `create_table`: the name is the primary key. -/
def insertTable (store : DynamoStore) (table : DynamoTable) : Option DynamoStore :=
  if (findTable store table.name).isSome then none
  else some { store with tables := store.tables ++ [table] }

/-- `delete_table`: the items and the table, in one call. -/
def deleteTable (store : DynamoStore) (name : String) : DynamoStore where
  items := store.items.filter fun row => row.tableName != name
  tables := store.tables.filter fun table => table.name != name

/-- The select of `get_item`. -/
def loadItem (store : DynamoStore) (tableName pk sk : String) : Option String :=
  (store.items.find? fun row => row.IsAt tableName pk sk).map DynamoItem.item

/-- The insert of `put_item`: at a conflict only the item is set. -/
def storeItem (store : DynamoStore) (row : DynamoItem) : DynamoStore :=
  { store with
    items :=
      if store.items.any fun other => other.IsAt row.tableName row.pk row.sk then
        store.items.map fun other =>
          if other.IsAt row.tableName row.pk row.sk then { other with item := row.item } else other
      else store.items ++ [row] }

/-- The delete of `delete_item`. -/
def deleteItem (store : DynamoStore) (tableName pk sk : String) : DynamoStore :=
  { store with items := store.items.filter fun row => !decide (row.IsAt tableName pk sk) }

/-! ### The attributes that an update sets -/

/-- `Map::insert`: the members stay in key order. -/
def setMember (members : List (String × Json)) (name : String) (value : Json) :
    List (String × Json) :=
  (members.filter fun member => decide (member.1 < name)) ++
    (name, value) :: members.filter fun member => decide (name < member.1)

/-- `str::strip_prefix`. -/
def stripPrefix (text start : String) : Option String :=
  if startsWith text start then some (String.ofList (text.toList.drop start.toList.length)) else none

/-- `str::trim_start_matches` of a character. -/
def trimStartMatches (char : Char) (text : String) : String :=
  String.ofList (text.toList.dropWhile (· == char))

/-- One part of `SET #attr = :val, ...`. A part without `=`, or with a value that is not there, is
passed over, and so is every part if the item is not an object. -/
def applyPart (values : Json) (item : Json) (part : String) : Json :=
  if '=' ∈ part.toList then
    let attr := trimStartMatches '#' (trim (beforeFirst '=' part))
    let value := trim (String.ofList ((part.toList.dropWhile (· != '=')).drop 1))
    match values.get value, item with
    | some v, .obj members => .obj (setMember members attr v)
    | _, item => item
  else item

/-- The handling of the update expression in `update_item`. -/
def applyUpdate (updateExpression : Option String) (values : Option Json) (item : Json) : Json :=
  match updateExpression, values with
  | some expr, some values =>
    match (stripPrefix (trim expr) "SET ").or (stripPrefix (trim expr) "set ") with
    | some rest => (split ',' rest).foldl (applyPart values) item
    | none => item
  | _, _ => item

section External

variable [External]

/-- `serde_json::from_str::<Vec<Value>>(key_schema).unwrap_or_default()`. -/
def schemaOf (keySchema : String) : List Json :=
  match External.jsonFromStr keySchema with
  | some (.arr entries) => entries
  | _ => []

/-- The attribute with the key type. -/
def keyName (keySchema keyType : String) : Option String := do
  let entry ← (schemaOf keySchema).find? fun entry =>
    (entry.get "KeyType").bind Json.asStr == some keyType
  let name ← entry.get "AttributeName"
  name.asStr

/-- `v.to_string()`, empty if the value is not there. -/
def keyText (value : Option Json) : String :=
  (value.map External.jsonToString).getD ""

/-- `DynamoDBService::extract_key`. -/
def extractKey (keySchema : String) (item : Json) : String × String :=
  (keyText (item.get ((keyName keySchema "HASH").getD "pk")),
    keyText ((keyName keySchema "RANGE").bind item.get))

/-- `serde_json::from_str(&s).unwrap_or(Value::Null)`. -/
def readItem (text : String) : Json :=
  (External.jsonFromStr text).getD .null

/-! ### Requests as tasks -/

inductive DynamoError where
  | notFound (message : String)
  | internal (message : String)
deriving DecidableEq

def DynamoError.noTable (tableName : String) : DynamoError :=
  .notFound ("ResourceNotFoundException: table " ++ tableName ++ " not found")

inductive DynamoRequest where
  | createTable (name keySchema attrDefs : String)
  | deleteTable (name : String)
  | putItem (tableName : String) (item : Json)
  | getItem (tableName : String) (key : Json)
  | deleteItem (tableName : String) (key : Json)
  | updateItem (tableName : String) (key : Json) (updateExpression : Option String)
      (values : Option Json)

inductive DynamoResponse where
  | table (table : DynamoTable)
  | item (item : Option Json)
  | done

/-- What an update does to the item that it finds. -/
structure ItemUpdate where
  key : Json
  updateExpression : Option String
  values : Option Json

/-- `existing.unwrap_or_else(|| key.clone())`, with the attributes set. -/
def ItemUpdate.result (update : ItemUpdate) (existing : Option String) : Json :=
  applyUpdate update.updateExpression update.values ((existing.map readItem).getD update.key)

/-- **The call that a request makes next.** The table is the row that an earlier call has found. -/
inductive DynamoTask where
  | start (request : DynamoRequest)
  | insertTable (name keySchema attrDefs : String)
  | describeTable (name : String)
  | storeItem (table : DynamoTable) (item : Json)
  | loadItem (table : DynamoTable) (key : Json)
  | deleteItem (table : DynamoTable) (key : Json)
  | loadForUpdate (table : DynamoTable) (update : ItemUpdate)
  | findForUpdate (tableName : String) (update : ItemUpdate) (existing : Option String)
  | storeUpdated (table : DynamoTable) (update : ItemUpdate) (existing : Option String)

abbrev DynamoProgress := Progress DynamoTask (Except DynamoError DynamoResponse)

def itemRow (table : DynamoTable) (item : Json) (now : String) : DynamoItem where
  tableName := table.name
  pk := (extractKey table.keySchema item).1
  sk := (extractKey table.keySchema item).2
  item := External.jsonToString item
  createdAt := now

/-- `get_table(..).ok_or_else(..)`: what an item request does first. -/
def withTable (store : DynamoStore) (tableName : String) (next : DynamoTable → DynamoTask) :
    DynamoProgress :=
  match findTable store tableName with
  | some table => .continues (next table)
  | none => .ends (.error (.noTable tableName))

/-- The first call of a request. -/
def DynamoRequest.run (store : DynamoStore) : DynamoRequest → DynamoProgress × DynamoStore
  | .createTable name keySchema attrDefs =>
    match findTable store name with
    | some table => (.ends (.ok (.table table)), store)
    | none => (.continues (.insertTable name keySchema attrDefs), store)
  | .deleteTable name => (.ends (.ok .done), Dynamodb.deleteTable store name)
  | .putItem tableName item => (withTable store tableName fun table => .storeItem table item, store)
  | .getItem tableName key => (withTable store tableName fun table => .loadItem table key, store)
  | .deleteItem tableName key =>
    (withTable store tableName fun table => .deleteItem table key, store)
  | .updateItem tableName key updateExpression values =>
    (withTable store tableName fun table =>
      .loadForUpdate table { key, updateExpression, values }, store)

/-- **A call**, at a reading of the clock. -/
def DynamoTask.run (now : String) (task : DynamoTask) (store : DynamoStore) :
    DynamoProgress × DynamoStore :=
  match task with
  | .start request => request.run store
  | .insertTable name keySchema attrDefs =>
    match Dynamodb.insertTable store
        { name, keySchema, attributeDefinitions := attrDefs, createdAt := now } with
    | some after => (.continues (.describeTable name), after)
    | none => (.ends (.error (.internal "UNIQUE constraint failed: dynamo_tables.name")), store)
  | .describeTable name =>
    match findTable store name with
    | some table => (.ends (.ok (.table table)), store)
    | none => (.ends (.error (.internal "create_table: not found after insert")), store)
  | .storeItem table item =>
    (.ends (.ok .done), Dynamodb.storeItem store (itemRow table item now))
  | .loadItem table key =>
    let (pk, sk) := extractKey table.keySchema key
    (.ends (.ok (.item ((Dynamodb.loadItem store table.name pk sk).map readItem))), store)
  | .deleteItem table key =>
    let (pk, sk) := extractKey table.keySchema key
    (.ends (.ok .done), Dynamodb.deleteItem store table.name pk sk)
  | .loadForUpdate table update =>
    let (pk, sk) := extractKey table.keySchema update.key
    let existing := Dynamodb.loadItem store table.name pk sk
    (.continues (.findForUpdate table.name update existing), store)
  | .findForUpdate tableName update existing =>
    (withTable store tableName fun table => .storeUpdated table update existing, store)
  | .storeUpdated table update existing =>
    let item := update.result existing
    (.ends (.ok (.item (some item))), Dynamodb.storeItem store (itemRow table item now))

abbrev DynamoSystem := System DynamoStore (Option DynamoTask)

def DynamoSystem.empty : DynamoSystem where
  shared := .empty
  client _ := none

abbrev DynamoEvent :=
  Event DynamoSystem (Nat × Turn String DynamoRequest) (Option (Except DynamoError DynamoResponse))

/-- **A client takes one call.** -/
def dynamoStep : DynamoSystem → Nat × Turn String DynamoRequest →
    Option (Except DynamoError DynamoResponse) × DynamoSystem :=
  System.step (advance DynamoTask.start DynamoTask.run)

abbrev DynamoRun (history : List DynamoEvent) (final : DynamoSystem) : Prop :=
  Run dynamoStep DynamoSystem.empty history final

/-- The call that a step makes. -/
def dynamoTaskOf (event : DynamoEvent) : DynamoTask :=
  taskOf DynamoTask.start event

end External

end CloudTwin.Dynamodb
