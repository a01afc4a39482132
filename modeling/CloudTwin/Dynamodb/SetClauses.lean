/-
**The SET clauses of an update** (`aws/dynamodb/service.rs`: `update_item`; `aws/dynamodb/query.rs`:
`resolve_name`).

`update_item` takes the name of an attribute from the text of the clause, without the leading `#`, while
a query looks a placeholder up in `ExpressionAttributeNames`.

* `SetClause`, `setExpression` — a clause with its blanks, and the expression.
* `assignments_setExpression` — what the code reads from it.
* `Keyed`, `keyed_run` — every stored item stands under its own key.
* `set_clauses_iff` — the update sets the resolved names if and only if the names as they are written
  leave every attribute with the same value; so they do if each placeholder stands for its own text.
* `placeholder_not_resolved` — a clause that sets another attribute.
-/

import CloudTwin.Dynamodb.TableMap
import CloudTwin.Lib.Words

namespace CloudTwin.Dynamodb

open Lib Lib.Text

set_option linter.unusedSectionVars false

/-! ### Clauses -/

/-- `resolve_name`. -/
def resolveName (token : String) (names : Json) : String :=
  if startsWith token "#" then ((names.get token).bind Json.asStr).getD token else token

/-- A clause `name = :value`, with the blanks around its parts. -/
structure SetClause where
  before : List Char
  name : String
  beforeEq : List Char
  afterEq : List Char
  value : String
  after : List Char

namespace SetClause

/-- What stands before the `=`. -/
def left (clause : SetClause) : List Char :=
  clause.before ++ clause.name.toList ++ clause.beforeEq

/-- The clause without the blanks after it. -/
def core (clause : SetClause) : List Char :=
  (clause.left ++ '=' :: clause.afterEq) ++ clause.value.toList

end SetClause

/-- The clauses, with commas between them. -/
def clausesText : List SetClause → List Char
  | [] => []
  | [clause] => clause.core
  | clause :: rest => (clause.core ++ clause.after) ++ ',' :: clausesText rest

def setExpression (lead trail : List Char) (clauses : List SetClause) : String :=
  String.ofList (lead ++ ("SET ".toList ++ clausesText clauses) ++ trail)

def Blank (chars : List Char) : Prop :=
  ∀ char ∈ chars, isWhitespace char = true

def IsToken (chars : List Char) : Prop :=
  ∀ char ∈ chars, isWhitespace char = false ∧ char ≠ ','

/-- **A clause of the grammar**: a plain name or a placeholder that is defined, and a value that is. -/
structure SetClause.WellFormed (names values : Json) (clause : SetClause) : Prop where
  before : Blank clause.before
  beforeEq : Blank clause.beforeEq
  afterEq : Blank clause.afterEq
  after : Blank clause.after
  nameToken : IsToken clause.name.toList
  noEq : '=' ∉ clause.name.toList
  valueToken : IsToken clause.value.toList
  colon : startsWith clause.value ":" = true
  resolves : startsWith clause.name "#" = true → ∃ attr, names.get clause.name = some (.str attr)
  defined : ∃ value, values.get clause.value = some value

/-- What a clause sets, under the names that `names` gives. -/
def clauseAssignments (nameOf : String → String) (values : Json) (clauses : List SetClause) :
    List (String × Json) :=
  clauses.filterMap fun clause =>
    (values.get clause.value).map fun value => (nameOf clause.name, value)

/-- The name as `update_item` takes it. -/
def writtenName (token : String) : String :=
  trimStartMatches '#' token

/-! ### Trimming and splitting -/

theorem nil_blank : Blank [] := by
  intro char there
  cases there

theorem Blank.not_mem {chars : List Char} (blank : Blank chars) {char : Char}
    (solid : isWhitespace char = false) : char ∉ chars := by
  intro member
  rw [blank char member] at solid
  cases solid

/-- **Blanks around a text are trimmed.** -/
theorem trim_padded {before core after : List Char} (blankBefore : Blank before)
    (blankAfter : Blank after) (first : ∀ char, core.head? = some char → isWhitespace char = false)
    (last : ∀ char, core.getLast? = some char → isWhitespace char = false) :
    trim (String.ofList (before ++ core ++ after)) = String.ofList core := by
  unfold trim
  rw [String.toList_ofList, List.append_assoc]
  exact congrArg String.ofList (Words.trimBy_solid blankBefore blankAfter ⟨first, last⟩)

theorem IsToken.head {chars : List Char} (token : IsToken chars) :
    ∀ char, chars.head? = some char → isWhitespace char = false :=
  fun char there => (token char (List.mem_of_mem_head? there)).1

theorem IsToken.last {chars : List Char} (token : IsToken chars) :
    ∀ char, chars.getLast? = some char → isWhitespace char = false :=
  fun char there => (token char (List.mem_of_getLast? there)).1

theorem stripPrefix_append (start rest : List Char) :
    stripPrefix (String.ofList (start ++ rest)) (String.ofList start) = some (String.ofList rest) := by
  simp [stripPrefix, startsWith, String.toList_ofList]

section Parsing

variable {names values : Json} {clause : SetClause}

theorem SetClause.WellFormed.left_noEq (formed : clause.WellFormed names values) :
    '=' ∉ clause.left := by
  unfold SetClause.left
  simp only [List.mem_append, not_or]
  exact ⟨⟨formed.before.not_mem (by decide), formed.noEq⟩, formed.beforeEq.not_mem (by decide)⟩

theorem SetClause.WellFormed.core_noComma (formed : clause.WellFormed names values) :
    ',' ∉ clause.core := by
  unfold SetClause.core SetClause.left
  simp only [List.mem_append, List.mem_cons, not_or]
  refine ⟨⟨⟨⟨formed.before.not_mem (by decide), fun there => (formed.nameToken _ there).2 rfl⟩,
    formed.beforeEq.not_mem (by decide)⟩, by decide, formed.afterEq.not_mem (by decide)⟩,
    fun there => (formed.valueToken _ there).2 rfl⟩

theorem SetClause.WellFormed.value_ne (formed : clause.WellFormed names values) :
    clause.value.toList ≠ [] := by
  intro none
  have colon := formed.colon
  unfold startsWith at colon
  rw [none] at colon
  revert colon
  decide

/-- **What the code reads from a clause**, with blanks after it or without. -/
theorem assigned_clause (formed : clause.WellFormed names values) {after : List Char}
    (blank : Blank after) : assigned values (String.ofList (clause.core ++ after)) =
      (values.get clause.value).map fun value => (writtenName clause.name, value) := by
  have shape : clause.core ++ after =
      clause.left ++ '=' :: (clause.afterEq ++ clause.value.toList ++ after) := by
    simp [SetClause.core]
  have apart : ∀ char ∈ clause.left, (char != '=') = true := fun char there =>
    bne_iff_ne.mpr fun same => formed.left_noEq (same ▸ there)
  have present : '=' ∈ (String.ofList (clause.core ++ after)).toList := by
    rw [String.toList_ofList, shape]
    simp
  have before : beforeFirst '=' (String.ofList (clause.core ++ after)) =
      String.ofList clause.left := by
    unfold beforeFirst
    rw [String.toList_ofList, shape, List.takeWhile_append_of_pos apart]
    simp
  have rest : ((String.ofList (clause.core ++ after)).toList.dropWhile (· != '=')).drop 1 =
      clause.afterEq ++ clause.value.toList ++ after := by
    rw [String.toList_ofList, shape, List.dropWhile_append_of_pos apart]
    simp
  have name : trim (String.ofList clause.left) = clause.name := by
    unfold SetClause.left
    rw [trim_padded formed.before formed.beforeEq formed.nameToken.head formed.nameToken.last,
      String.ofList_toList]
  have value : trim (String.ofList (clause.afterEq ++ clause.value.toList ++ after)) =
      clause.value := by
    rw [trim_padded formed.afterEq blank formed.valueToken.head formed.valueToken.last,
      String.ofList_toList]
  unfold assigned
  rw [if_pos present, before, rest, name, value]
  rfl

/-- The last clause ends with its value. -/
theorem clausesText_ends : ∀ clauses : List SetClause, clauses ≠ [] →
    ∃ front, ∃ clause ∈ clauses, clausesText clauses = front ++ clause.value.toList
  | [], nonempty => absurd rfl nonempty
  | [clause], _ => ⟨_, clause, List.mem_cons_self, rfl⟩
  | clause :: next :: rest, _ => by
    obtain ⟨front, last, member, ends⟩ := clausesText_ends (next :: rest) (List.cons_ne_nil _ _)
    refine ⟨(clause.core ++ clause.after) ++ ',' :: front, last, List.mem_cons_of_mem _ member, ?_⟩
    rw [clausesText, ends, List.append_assoc, List.append_assoc, List.append_assoc]
    · rfl
    · exact List.cons_ne_nil _ _

/-- The parts between the commas are the clauses. -/
theorem assigned_parts : ∀ clauses : List SetClause, clauses ≠ [] →
    (∀ clause ∈ clauses, clause.WellFormed names values) →
    (splitGo ',' [] (clausesText clauses)).map (fun part => assigned values (String.ofList part)) =
      clauses.map fun clause =>
        (values.get clause.value).map fun value => (writtenName clause.name, value)
  | [], nonempty, _ => absurd rfl nonempty
  | [clause], _, formed => by
    have here := formed clause List.mem_cons_self
    have read := assigned_clause here nil_blank
    rw [List.append_nil] at read
    rw [clausesText, splitGo_last ',' _ here.core_noComma]
    simp only [List.reverse_nil, List.nil_append, List.map_cons, List.map_nil, read]
  | clause :: next :: rest, _, formed => by
    have here := formed clause List.mem_cons_self
    have absent : ',' ∉ clause.core ++ clause.after := by
      rw [List.mem_append, not_or]
      exact ⟨here.core_noComma, here.after.not_mem (by decide)⟩
    have tail := assigned_parts (next :: rest) (List.cons_ne_nil _ _)
      fun other there => formed other (List.mem_cons_of_mem _ there)
    rw [clausesText, splitGo_append ',' _ absent]
    · rw [List.map_cons, tail, List.reverse_nil, List.nil_append, assigned_clause here here.after]
      rfl
    · exact List.cons_ne_nil _ _

/-- **What the code reads from an expression**: the clauses, under the names as they are written. -/
theorem assignments_setExpression {clauses : List SetClause} (nonempty : clauses ≠ [])
    (formed : ∀ clause ∈ clauses, clause.WellFormed names values) {lead trail : List Char}
    (blankLead : Blank lead) (blankTrail : Blank trail) :
    assignments (some (setExpression lead trail clauses)) (some values) =
      clauseAssignments writtenName values clauses := by
  obtain ⟨front, last, member, ends⟩ := clausesText_ends clauses nonempty
  have trimmed : trim (setExpression lead trail clauses) =
      String.ofList ("SET ".toList ++ clausesText clauses) := by
    refine trim_padded blankLead blankTrail ?_ ?_
    · intro char there
      obtain rfl : 'S' = char := Option.some.inj there
      decide
    · intro char there
      rw [ends, ← List.append_assoc, List.getLast?_append_of_ne_nil _
        (formed last member).value_ne] at there
      exact (formed last member).valueToken.last char there
  have parts : partsOf (setExpression lead trail clauses) =
      (splitGo ',' [] (clausesText clauses)).map String.ofList := by
    have stripped := stripPrefix_append "SET ".toList (clausesText clauses)
    rw [String.ofList_toList] at stripped
    unfold partsOf
    rw [trimmed, stripped, Option.some_or]
    show split ',' (String.ofList (clausesText clauses)) = _
    unfold split
    rw [String.toList_ofList]
  have read := congrArg (List.filterMap id) (assigned_parts clauses nonempty formed)
  rw [List.filterMap_map, List.filterMap_map] at read
  unfold assignments clauseAssignments
  dsimp only
  rw [parts, List.filterMap_map]
  exact read

end Parsing

section External

variable [External] (laws : JsonLaws ‹External›)

/-! ### Every item stands under its own key -/

/-- What a request carries are objects of values that can be read back. -/
def CarriesObjects (write : ItemWrite) : Prop :=
  (∃ members, write.key = .obj members ∧ Parsed (.obj members)) ∧
    ∀ tableName key updateExpression values,
      write = .update tableName key updateExpression (some values) → Parsed values

/-- **Every stored item is an object, and stands under its own key.** -/
def Keyed (store : DynamoStore) : Prop :=
  ∀ row ∈ store.items, ∀ table, findTable store row.tableName = some table → ∃ members,
    External.jsonFromStr row.item = some (.obj members) ∧ Parsed (.obj members) ∧
    extractKey table.keySchema (.obj members) = (row.pk, row.sk)

variable {store : DynamoStore} {table : DynamoTable}

include laws in
theorem keyed_storeItem (keyed : Keyed store) (found : findTable store table.name = some table)
    {members : List (String × Json)} (ordered : Parsed (.obj members)) (now : String) :
    Keyed (storeItem store (itemRow table (.obj members) now)) := by
  intro row member other foundOther
  rcases storeItem_rows member with ⟨old, _⟩ | ⟨placed, same⟩
  · exact keyed row old other foundOther
  · have own : findTable store row.tableName = some other := foundOther
    rw [placed.1, show (itemRow table (.obj members) now).tableName = table.name from rfl, found] at own
    obtain rfl := Option.some.inj own
    refine ⟨members, ?_, ordered, Prod.ext placed.2.1.symm placed.2.2.symm⟩
    rw [same]
    exact laws.reads _ ordered

/-- The item that an update goes by, or the key: an object. -/
theorem baseItem_obj (keyed : Keyed store) (found : findTable store table.name = some table)
    {key : Json} (object : ∃ members, key = .obj members ∧ Parsed (.obj members)) :
    ∃ members, ((existingText store table key).map readItem).getD key = .obj members ∧
      Parsed (.obj members) ∧
      extractKey table.keySchema (.obj members) = extractKey table.keySchema key := by
  unfold existingText loadItem
  cases there : store.items.find? fun row => row.IsAt table.name
      (extractKey table.keySchema key).1 (extractKey table.keySchema key).2 with
  | none =>
    obtain ⟨members, rfl, ordered⟩ := object
    exact ⟨members, rfl, ordered, rfl⟩
  | some row =>
    have placed : row.IsAt table.name (extractKey table.keySchema key).1
        (extractKey table.keySchema key).2 := by simpa using List.find?_some there
    obtain ⟨members, read, ordered, at_⟩ := keyed row (List.mem_of_find?_eq_some there) table
      (by rw [placed.1]; exact found)
    refine ⟨members, ?_, ordered, at_.trans (Prod.ext placed.2.1 placed.2.2)⟩
    simp only [Option.map_some, Option.getD_some, readItem, read]

include laws in
theorem keyed_effect (keyed : Keyed store) {write : ItemWrite}
    (found : findTable store write.tableName = some table) (carries : CarriesObjects write)
    (now : String) : Keyed (effect store table now write) := by
  have named : findTable store table.name = some table := by
    rw [findTable_name found]
    exact found
  cases write with
  | put tableName item =>
    obtain ⟨members, rfl, ordered⟩ := carries.1
    exact keyed_storeItem laws keyed named ordered now
  | delete tableName key =>
    exact fun row member other foundOther => keyed row (deleteItem_rows.mp member).1 other foundOther
  | update tableName key updateExpression values =>
    have object : ∃ members, key = .obj members ∧ Parsed (.obj members) := carries.1
    obtain ⟨members, base, ordered, _⟩ := baseItem_obj keyed named object
    have valuesOrdered : ∀ value ∈ values, Parsed value := fun value there =>
      carries.2 tableName key updateExpression value (by rw [← there])
    have stored : effect store table now (.update tableName key updateExpression values) =
        storeItem store (itemRow table (applyUpdate updateExpression values (.obj members)) now) := by
      rw [← base]
      rfl
    rw [stored, applyUpdate_obj]
    exact keyed_storeItem laws keyed named
      (assignments_ordered (mem_assignments_ordered valuesOrdered) members ordered) now

include laws in
theorem keyed_writes (now : String) (writes : List ItemWrite)
    (carries : ∀ write ∈ writes, CarriesObjects write) :
    ∀ store, Keyed store → Keyed (runWrites now writes store) := by
  induction writes with
  | nil => exact fun store keyed => keyed
  | cons write rest ih =>
    intro store keyed
    cases found : findTable store write.tableName with
    | none =>
      rw [runWrites, alone_missing now write found]
      exact keyed
    | some table =>
      obtain ⟨response, ran⟩ := alone_effect now write found
      rw [runWrites, ran]
      exact ih (fun other there => carries other (List.mem_cons_of_mem _ there)) _
        (keyed_effect laws keyed found (carries write List.mem_cons_self) now)

include laws in
theorem keyed_run (requests : List (String × WriteRequest))
    (carries : ∀ request ∈ requests, ∀ write ∈ request.2.writes, CarriesObjects write) :
    ∀ store, Keyed store → Keyed (requests.foldl writeStep store) := by
  induction requests with
  | nil => exact fun store keyed => keyed
  | cons request rest ih =>
    intro store keyed
    exact ih (fun other there => carries other (List.mem_cons_of_mem _ there)) _
      (keyed_writes laws request.1 request.2.writes (carries request List.mem_cons_self) store keyed)

/-! ### The update -/

/-- The stored item, or the key. -/
def baseItem (store : DynamoStore) (table : DynamoTable) (key : Json) : Json :=
  ((existingText store table key).map readItem).getD key

/-- **The update applies its clauses**: the item that is returned is stored, and each attribute has the
value of the last clause for its resolved name, or the one it had. -/
def AppliesClauses (store : DynamoStore) (table : DynamoTable) (key names values : Json)
    (expression : String) (clauses : List SetClause) : Prop :=
  ∀ now, ∃ item after,
    (DynamoTask.start (.updateItem table.name key (some expression) (some values))).alone now 4 store =
      (some (.ok (.item (some item))), after) ∧
    getItem after table.name key = some (.ok (.item (some item))) ∧
    ∀ name, item.get name =
      lastValue (clauseAssignments (resolveName · names) values clauses) name
        ((baseItem store table key).get name)

theorem extractKey_congr {keySchema : String} {item other : Json}
    (same : ∀ name, IsKeyName keySchema name → item.get name = other.get name) :
    extractKey keySchema item = extractKey keySchema other := by
  have hash := same (hashName keySchema) (Or.inl rfl)
  unfold extractKey
  change (keyText (item.get (hashName keySchema)), _) = (keyText (other.get (hashName keySchema)), _)
  rw [hash]
  cases range : keyName keySchema "RANGE" with
  | none => rfl
  | some name => simp only [Option.bind_some, same name (Or.inr range)]

theorem loadItem_storeItem (store : DynamoStore) (put : DynamoItem) :
    loadItem (storeItem store put) put.tableName put.pk put.sk = some put.item := by
  unfold loadItem
  cases found : (storeItem store put).items.find? fun row =>
      row.IsAt put.tableName put.pk put.sk with
  | none =>
    obtain ⟨row, member, placed, _⟩ := storeItem_there store put
    exact absurd (decide_eq_true placed) (List.find?_eq_none.mp found row member)
  | some row =>
    have placed : row.IsAt put.tableName put.pk put.sk := by simpa using List.find?_some found
    rcases storeItem_rows (List.mem_of_find?_eq_some found) with ⟨_, away⟩ | ⟨_, same⟩
    · exact absurd placed away
    · exact congrArg some same

include laws in
/-- An item that is stored at the place of a key is what a read of the key returns. -/
theorem getItem_stored (found : findTable store table.name = some table) {item key : Json}
    (ordered : Parsed item)
    (same : extractKey table.keySchema item = extractKey table.keySchema key) (now : String) :
    getItem (storeItem store (itemRow table item now)) table.name key =
      some (.ok (.item (some item))) := by
  have loaded := loadItem_storeItem store (itemRow table item now)
  simp only [itemRow, same] at loaded
  unfold getItem
  rw [alone_get "" key (show findTable (storeItem store (itemRow table item now)) table.name =
    some table from found)]
  simp only [itemRow, same, loaded, Option.map_some, readItem_printed laws ordered]

/-- Clauses that take the same names set the same attributes. -/
theorem clauseAssignments_congr {nameOf other : String → String} {values : Json}
    {clauses : List SetClause} (same : ∀ clause ∈ clauses, nameOf clause.name = other clause.name) :
    clauseAssignments nameOf values clauses = clauseAssignments other values clauses := by
  refine List.filterMap_congr fun clause there => ?_
  rw [same clause there]

theorem clauseAssignments_ordered {levels : Nat} {nameOf : String → String} {values : Json}
    (ordered : Ordered (levels + 1) values) {clauses : List SetClause} :
    ∀ assignment ∈ clauseAssignments nameOf values clauses, Ordered levels assignment.2 := by
  intro assignment there
  obtain ⟨clause, _, found⟩ := List.mem_filterMap.mp there
  obtain ⟨value, held, rfl⟩ := Option.map_eq_some_iff.mp found
  exact ordered.get held

include laws in
/-- The update, on rows that stand under their own keys. -/
theorem appliesClauses_iff (keyed : Keyed store) (found : findTable store table.name = some table)
    {key names values : Json} (object : ∃ members, key = .obj members ∧ Parsed (.obj members))
    (valuesOrdered : Parsed values) {clauses : List SetClause} (nonempty : clauses ≠ [])
    (formed : ∀ clause ∈ clauses, clause.WellFormed names values)
    (noKey : ∀ clause ∈ clauses, ¬ IsKeyName table.keySchema (resolveName clause.name names))
    {lead trail : List Char} (blankLead : Blank lead) (blankTrail : Blank trail) :
    AppliesClauses store table key names values (setExpression lead trail clauses) clauses ↔
      ∀ name, lastValue (clauseAssignments writtenName values clauses) name
          ((baseItem store table key).get name) =
        lastValue (clauseAssignments (resolveName · names) values clauses) name
          ((baseItem store table key).get name) := by
  obtain ⟨members, base, ordered, placed⟩ := baseItem_obj keyed found object
  have read := assignments_setExpression nonempty formed blankLead blankTrail
  -- what the update writes, and what it leaves under a name
  have result : ItemUpdate.result ⟨key, some (setExpression lead trail clauses), some values⟩
      (existingText store table key) = .obj ((clauseAssignments writtenName values clauses).foldl
        (fun members assignment => setMember members assignment.1 assignment.2) members) := by
    unfold ItemUpdate.result
    rw [base, applyUpdate_obj, read]
  have got (name : String) := get_assignments name (clauseAssignments writtenName values clauses)
    members
  have written (now : String) := alone_update now
    ⟨key, some (setExpression lead trail clauses), some values⟩ found
  simp only [result] at written
  unfold baseItem AppliesClauses
  unfold baseItem
  rw [base]
  constructor
  · intro applies name
    obtain ⟨item, after, ran, _, gets⟩ := applies ""
    rw [written "", Prod.mk.injEq] at ran
    obtain ⟨response, _⟩ := ran
    simp only [Option.some.injEq, Except.ok.injEq, DynamoResponse.item.injEq] at response
    rw [← gets name, ← response, got name]
  · intro agree now
    refine ⟨_, _, written now, ?_, fun name => (got name).trans (agree name)⟩
    refine getItem_stored laws found (assignments_ordered (clauseAssignments_ordered valuesOrdered)
      members ordered) ?_ now
    rw [← placed]
    -- no clause resolves to an attribute of the key, so the item stays where it was
    refine extractKey_congr fun name isKey => ?_
    rw [got name, agree name]
    refine lastValue_kept fun assignment there same => ?_
    obtain ⟨clause, member, taken⟩ := List.mem_filterMap.mp there
    obtain ⟨value, _, rfl⟩ := Option.map_eq_some_iff.mp taken
    have resolved : resolveName clause.name names = name := same
    rw [← resolved] at isKey
    exact absurd isKey (noKey clause member)

include laws in
/-- **An update applies its clauses** if and only if the names as they are written leave every attribute
with the value that the resolved names leave it with. So it is if each name stands for its own text. -/
theorem set_clauses_iff {start : DynamoStore} (fresh : start.items = [])
    (requests : List (String × WriteRequest))
    (carries : ∀ request ∈ requests, ∀ write ∈ request.2.writes, CarriesObjects write)
    (found : findTable (requests.foldl writeStep start) table.name = some table)
    {key names values : Json} (object : ∃ members, key = .obj members ∧ Parsed (.obj members))
    (valuesOrdered : Parsed values) {clauses : List SetClause} (nonempty : clauses ≠ [])
    (formed : ∀ clause ∈ clauses, clause.WellFormed names values)
    (noKey : ∀ clause ∈ clauses, ¬ IsKeyName table.keySchema (resolveName clause.name names))
    {lead trail : List Char} (blankLead : Blank lead) (blankTrail : Blank trail) :
    (AppliesClauses (requests.foldl writeStep start) table key names values
        (setExpression lead trail clauses) clauses ↔
      ∀ name, lastValue (clauseAssignments writtenName values clauses) name
          ((baseItem (requests.foldl writeStep start) table key).get name) =
        lastValue (clauseAssignments (resolveName · names) values clauses) name
          ((baseItem (requests.foldl writeStep start) table key).get name)) ∧
    ((∀ clause ∈ clauses, writtenName clause.name = resolveName clause.name names) →
      AppliesClauses (requests.foldl writeStep start) table key names values
        (setExpression lead trail clauses) clauses) := by
  have empty : Keyed start := by
    intro row member
    rw [fresh] at member
    cases member
  have keyed := keyed_run laws requests carries start empty
  have equivalence := appliesClauses_iff laws keyed found object valuesOrdered nonempty formed noKey
    blankLead blankTrail
  refine ⟨equivalence, fun own => equivalence.mpr fun name => ?_⟩
  have same : clauseAssignments writtenName values clauses =
      clauseAssignments (resolveName · names) values clauses := clauseAssignments_congr own
  rw [same]

end External

/-! ### A placeholder for its own text, and one for another -/

section Sample

attribute [local instance] printedJson

/-- `#s = :v`. -/
def placeholderClause : SetClause where
  before := []
  name := "#s"
  beforeEq := [' ']
  afterEq := [' ']
  value := ":v"
  after := []

def placeholderNames (attr : String) : Json :=
  .obj [("#s", .str attr)]

def placeholderValues : Json :=
  .obj [(":v", typed "1")]

theorem blank_blank : Blank [' '] := by
  intro char there
  rw [List.mem_singleton.mp there]
  decide

theorem placeholderClause_formed (attr : String) :
    placeholderClause.WellFormed (placeholderNames attr) placeholderValues where
  before := nil_blank
  beforeEq := blank_blank
  afterEq := blank_blank
  after := nil_blank
  nameToken char there := by
    have there : char ∈ ['#', 's'] := there
    rcases List.mem_pair.mp there with rfl | rfl <;> decide
  noEq := by decide
  valueToken char there := by
    have there : char ∈ [':', 'v'] := there
    rcases List.mem_pair.mp there with rfl | rfl <;> decide
  colon := by decide
  resolves _ := ⟨attr, rfl⟩
  defined := ⟨typed "1", rfl⟩

theorem placeholderValues_ordered : Parsed placeholderValues :=
  .obj _ (List.pairwise_singleton _ _) fun member there => by
    rw [List.mem_singleton.mp there]
    exact typed_ordered "1"

theorem not_isKeyName {name : String} (other : name ≠ "pk") :
    ¬ IsKeyName mapTable.keySchema name := by
  rintro (hash | range)
  · exact other (hash.trans hashName_mapTable)
  · rw [rangeName_mapTable] at range
    cases range

theorem pkItem_object : ∃ members, pkItem (typed "k") = .obj members ∧ Parsed (.obj members) :=
  ⟨_, rfl, pkItem_ordered (typed_ordered "k")⟩

/-- ` n = :v`. -/
def plainClause : SetClause where
  before := [' ']
  name := "n"
  beforeEq := [' ']
  afterEq := [' ']
  value := ":v"
  after := []

theorem plainClause_formed (attr : String) :
    plainClause.WellFormed (placeholderNames attr) placeholderValues where
  before := blank_blank
  beforeEq := blank_blank
  afterEq := blank_blank
  after := nil_blank
  nameToken char there := by
    have there : char ∈ ['n'] := there
    rw [List.mem_singleton.mp there]
    decide
  noEq := by decide
  valueToken char there := by
    have there : char ∈ [':', 'v'] := there
    rcases List.mem_pair.mp there with rfl | rfl <;> decide
  colon := by decide
  resolves wrong := absurd wrong (by decide)
  defined := ⟨typed "1", rfl⟩

/-- `SET #s = :v, n = :v`, where the placeholder stands for its own text. -/
theorem set_clauses_iff_sample :
    AppliesClauses mapStart mapTable (pkItem (typed "k")) (placeholderNames "s") placeholderValues
      (setExpression [] [] [placeholderClause, plainClause]) [placeholderClause, plainClause] := by
  have found : findTable mapStart mapTable.name = some mapTable := mapTable_found
  refine (set_clauses_iff printed_laws (rfl : mapStart.items = []) []
    (fun request there => by cases there) found pkItem_object placeholderValues_ordered
    (List.cons_ne_nil _ _) ?_ ?_ nil_blank nil_blank).2 ?_
  · intro clause there
    rcases List.mem_pair.mp there with rfl | rfl
    · exact placeholderClause_formed "s"
    · exact plainClause_formed "s"
  · intro clause there
    rcases List.mem_pair.mp there with rfl | rfl
    · exact not_isKeyName (by decide)
    · exact not_isKeyName (by decide)
  · intro clause there
    rcases List.mem_pair.mp there with rfl | rfl
    · decide
    · decide

/-- **A placeholder is not resolved**: `#s` stands for `status`, and the update sets `s`. -/
theorem placeholder_not_resolved :
    ¬ AppliesClauses mapStart mapTable (pkItem (typed "k")) (placeholderNames "status")
      placeholderValues (setExpression [] [] [placeholderClause]) [placeholderClause] := by
  have keyed : Keyed mapStart := by
    intro row member
    cases member
  rw [appliesClauses_iff printed_laws keyed rfl pkItem_object placeholderValues_ordered
    (List.cons_ne_nil _ _) ?_ ?_ nil_blank nil_blank]
  · intro agree
    have status := agree "status"
    cases status
  · intro clause there
    rw [List.mem_singleton.mp there]
    exact placeholderClause_formed "status"
  · intro clause there
    rw [List.mem_singleton.mp there]
    exact not_isKeyName (by decide)

end Sample

end CloudTwin.Dynamodb
