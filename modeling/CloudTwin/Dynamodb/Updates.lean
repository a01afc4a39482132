/-
**Updates of items that cross.**

An update reads the item in one call and writes all of it in another, and every write goes by a table
that an earlier call has found.

* `DynamoTask.relies` — the table that a request under way has found.
* `Undisturbed` — a table is deleted while no other request relies on it, and an update writes an item
  that is what it read.
* `pointOf` — the call in which a request takes its effect.
* `items_atomic` — undisturbed requests are one after the other, and a deletion leaves nothing behind.
* `item_update_lost`, `item_resurrected` — two updates that cross, and a put across a deletion.
-/

import CloudTwin.Dynamodb.Service
import CloudTwin.Lib.Serial
import Mathlib.Data.List.Permutation

namespace CloudTwin.Dynamodb

open Lib Lib.Text

set_option linter.unusedSectionVars false

/-! ### What is looked up -/

theorem findTable_name {store : DynamoStore} {name : String} {table : DynamoTable}
    (found : findTable store name = some table) : table.name = name := by
  have same := List.find?_some found
  exact beq_iff_eq.mp same

theorem findTable_insertTable {store after : DynamoStore} {table : DynamoTable}
    (inserted : insertTable store table = some after) :
    findTable store table.name = none ∧ findTable after table.name = some table ∧
    ∀ name other, findTable store name = some other → findTable after name = some other := by
  unfold insertTable at inserted
  split at inserted
  · cases inserted
  · rename_i free
    cases inserted
    have missing := Option.not_isSome_iff_eq_none.mp free
    refine ⟨missing, ?_, fun name other found => ?_⟩
    · show (store.tables ++ [table]).find? _ = _
      rw [List.find?_append]
      show (findTable store table.name).or _ = _
      rw [missing]
      simp
    · show (store.tables ++ [table]).find? _ = _
      rw [List.find?_append]
      show (findTable store name).or _ = _
      rw [found]
      rfl

theorem findTable_deleteTable {store : DynamoStore} {name other : String} (differs : other ≠ name) :
    findTable (deleteTable store name) other = findTable store other := by
  show (store.tables.filter _).find? _ = _
  rw [List.find?_filter]
  refine congrArg (fun condition => store.tables.find? condition) (funext fun table => ?_)
  by_cases own : table.name = other
  · subst own
    simp [differs]
  · simp [own]

/-- Every row of the table has the table's name; none has it once the table is deleted. -/
theorem deleteTable_items {store : DynamoStore} {name : String} :
    ∀ row ∈ (deleteTable store name).items, row.tableName ≠ name := by
  intro row member same
  exact absurd (List.mem_filter.mp member).2 (by simp [same])

/-- **The rows after a put**: those at other places, and the item at its own. -/
theorem storeItem_rows {store : DynamoStore} {put row : DynamoItem}
    (member : row ∈ (storeItem store put).items) :
    (row ∈ store.items ∧ ¬ row.IsAt put.tableName put.pk put.sk) ∨
      (row.IsAt put.tableName put.pk put.sk ∧ row.item = put.item) := by
  simp only [storeItem] at member
  split at member
  · obtain ⟨other, there, same⟩ := List.mem_map.mp member
    split at same
    · rename_i at_
      subst same
      exact Or.inr ⟨at_, rfl⟩
    · rename_i away
      subst same
      exact Or.inl ⟨there, away⟩
  · rename_i free
    rcases List.mem_append.mp member with old | new
    · exact Or.inl ⟨old, fun placed => free (List.any_eq_true.mpr ⟨row, old, decide_eq_true placed⟩)⟩
    · rw [List.mem_singleton.mp new]
      exact Or.inr ⟨⟨rfl, rfl, rfl⟩, rfl⟩

section External

variable [External]

theorem withTable_continues {store : DynamoStore} {tableName : String}
    {next : DynamoTable → DynamoTask} {task : DynamoTask}
    (goes : withTable store tableName next = .continues task) :
    ∃ table, findTable store tableName = some table ∧ task = next table := by
  unfold withTable at goes
  split at goes
  · rename_i table found
    cases goes
    exact ⟨table, found, rfl⟩
  · cases goes

/-! ### Requests that rely on a table -/

/-- The table that a request for an item has found. -/
def DynamoTask.itemTable : DynamoTask → Option String
  | .start _ => none
  | .insertTable _ _ _ => none
  | .describeTable _ => none
  | .storeItem table _ => some table.name
  | .loadItem table _ => some table.name
  | .deleteItem table _ => some table.name
  | .loadForUpdate table _ => some table.name
  | .findForUpdate tableName _ _ => some tableName
  | .storeUpdated table _ _ => some table.name

/-- The table that a request under way has found, or has made. -/
def DynamoTask.relies : DynamoTask → Option String
  | .describeTable name => some name
  | task => task.itemTable

theorem DynamoTask.relies_of_itemTable {task : DynamoTask} {name : String}
    (found : task.itemTable = some name) : task.relies = some name := by
  cases task with
  | describeTable other => cases found
  | _ => exact found

/-- **No other request relies on a table that is deleted, and an update writes what it read.** -/
def Undisturbed (event : DynamoEvent) : Prop :=
  match dynamoTaskOf event with
  | .start (.deleteTable name) => ∀ client ≠ event.input.1, ∀ task,
      event.before.client client = some task → task.relies ≠ some name
  | .storeUpdated table update existing =>
    loadItem event.before.shared table.name (extractKey table.keySchema update.key).1
      (extractKey table.keySchema update.key).2 = existing
  | _ => True

/-- What a request goes by is still so. -/
def Sound (store : DynamoStore) : DynamoTask → Prop
  | .start _ => True
  | .insertTable _ _ _ => True
  | .describeTable name => (findTable store name).isSome = true
  | .storeItem table _ => findTable store table.name = some table
  | .loadItem table _ => findTable store table.name = some table
  | .deleteItem table _ => findTable store table.name = some table
  | .loadForUpdate table _ => findTable store table.name = some table
  | .findForUpdate tableName _ _ => (findTable store tableName).isSome = true
  | .storeUpdated table _ _ => findTable store table.name = some table

/-- A request that relies on a table goes by the row of the table, and by nothing else. -/
theorem Sound.of_kept {store after : DynamoStore} {task : DynamoTask} (sound : Sound store task)
    (kept : ∀ name, task.relies = some name → ∀ table, findTable store name = some table →
      findTable after name = some table) : Sound after task := by
  have still : ∀ name, task.relies = some name → (findTable store name).isSome = true →
      (findTable after name).isSome = true := by
    intro name relies there
    obtain ⟨table, found⟩ := Option.isSome_iff_exists.mp there
    rw [kept name relies table found]
    rfl
  cases task with
  | start request => trivial
  | insertTable name keySchema attrDefs => trivial
  | describeTable name => exact still name rfl sound
  | storeItem table item => exact kept _ rfl table sound
  | loadItem table key => exact kept _ rfl table sound
  | deleteItem table key => exact kept _ rfl table sound
  | loadForUpdate table update => exact kept _ rfl table sound
  | findForUpdate tableName update existing => exact still tableName rfl sound
  | storeUpdated table update existing => exact kept _ rfl table sound

/-- **What a call does to the tables**: it deletes one, or every table that is there stays. -/
theorem run_tables (now : String) (task : DynamoTask) (store : DynamoStore) :
    (∃ name, task = .start (.deleteTable name) ∧
      (task.run now store).2 = deleteTable store name) ∨
    ∀ name table, findTable store name = some table →
      findTable (task.run now store).2 name = some table := by
  cases task with
  | start request =>
    cases request with
    | deleteTable name => exact Or.inl ⟨name, rfl, rfl⟩
    | createTable name keySchema attrDefs =>
      right
      simp only [DynamoTask.run, DynamoRequest.run]
      cases findTable store name with
      | some table => exact fun _ _ found => found
      | none => exact fun _ _ found => found
    | putItem _ _ => exact Or.inr fun _ _ found => found
    | getItem _ _ => exact Or.inr fun _ _ found => found
    | deleteItem _ _ => exact Or.inr fun _ _ found => found
    | updateItem _ _ _ _ => exact Or.inr fun _ _ found => found
  | insertTable name keySchema attrDefs =>
    right
    simp only [DynamoTask.run]
    cases inserted : Dynamodb.insertTable store
        { name, keySchema, attributeDefinitions := attrDefs, createdAt := now } with
    | some after => exact (findTable_insertTable inserted).2.2
    | none => exact fun _ _ found => found
  | describeTable name =>
    right
    simp only [DynamoTask.run]
    cases findTable store name with
    | some table => exact fun _ _ found => found
    | none => exact fun _ _ found => found
  | storeItem table item => exact Or.inr fun _ _ found => found
  | loadItem table key => exact Or.inr fun _ _ found => found
  | deleteItem table key => exact Or.inr fun _ _ found => found
  | loadForUpdate table update => exact Or.inr fun _ _ found => found
  | findForUpdate tableName update existing => exact Or.inr fun _ _ found => found
  | storeUpdated table update existing => exact Or.inr fun _ _ found => found

/-- **A call of a sound request leads to a sound one**, and the table that it then relies on is the
table that it relied on, or one that it has just found. -/
theorem run_leads {now : String} {task next : DynamoTask} {store : DynamoStore}
    (sound : Sound store task) (goes : (task.run now store).1 = .continues next) :
    Sound (task.run now store).2 next := by
  cases task with
  | start request =>
    cases request with
    | createTable name keySchema attrDefs =>
      simp only [DynamoTask.run, DynamoRequest.run] at goes ⊢
      cases found : findTable store name with
      | some table =>
        rw [found] at goes
        cases goes
      | none =>
        rw [found] at goes
        cases goes
        trivial
    | deleteTable name => cases goes
    | putItem tableName item =>
      obtain ⟨table, found, rfl⟩ := withTable_continues goes
      exact findTable_name found ▸ found
    | getItem tableName key =>
      obtain ⟨table, found, rfl⟩ := withTable_continues goes
      exact findTable_name found ▸ found
    | deleteItem tableName key =>
      obtain ⟨table, found, rfl⟩ := withTable_continues goes
      exact findTable_name found ▸ found
    | updateItem tableName key updateExpression values =>
      obtain ⟨table, found, rfl⟩ := withTable_continues goes
      exact findTable_name found ▸ found
  | insertTable name keySchema attrDefs =>
    simp only [DynamoTask.run] at goes ⊢
    cases inserted : Dynamodb.insertTable store
        { name, keySchema, attributeDefinitions := attrDefs, createdAt := now } with
    | some after =>
      rw [inserted] at goes
      cases goes
      show (findTable after name).isSome = true
      rw [(findTable_insertTable inserted).2.1]
      rfl
    | none =>
      rw [inserted] at goes
      cases goes
  | describeTable name =>
    simp only [DynamoTask.run] at goes
    cases found : findTable store name with
    | some table =>
      rw [found] at goes
      cases goes
    | none =>
      rw [found] at goes
      cases goes
  | storeItem table item => cases goes
  | loadItem table key => cases goes
  | deleteItem table key => cases goes
  | loadForUpdate table update =>
    cases goes
    exact Option.isSome_iff_exists.mpr ⟨table, sound⟩
  | findForUpdate tableName update existing =>
    obtain ⟨table, found, rfl⟩ := withTable_continues goes
    exact findTable_name found ▸ found
  | storeUpdated table update existing => cases goes

/-- **In an undisturbed run every request goes by what is so.** -/
theorem sound_history {history : List DynamoEvent} {final : DynamoSystem}
    (run : DynamoRun history final) (undisturbed : ∀ event ∈ history, Undisturbed event) :
    ∀ event ∈ history, Sound event.before.shared (dynamoTaskOf event) := by
  refine fun event member => (tasks_invariant (fun _ => True) Sound run ⟨trivial, fun _ _ => nofun⟩
    (fun _ _ _ => trivial) ?_).2 event member |>.2.1
  intro event there taken _ sound
  obtain ⟨shared, _⟩ := task_taken taken
  refine ⟨trivial, fun next goes => ?_, fun client other away held soundOther => ?_⟩
  · rw [shared]
    exact run_leads sound goes
  · refine soundOther.of_kept fun name relies table found => ?_
    rw [shared]
    rcases run_tables event.input.2.call (taskOf DynamoTask.start event) event.before.shared with
      ⟨dropped, task, after⟩ | kept
    · have free := undisturbed event there
      unfold Undisturbed dynamoTaskOf at free
      rw [task] at free
      have differs : name ≠ dropped := by
        rintro rfl
        exact free client away other held relies
      rw [after, findTable_deleteTable differs]
      exact found
    · exact kept name table found

/-! ### Whole requests, one after the other -/

/-- The request runs to its end, without another one in between. -/
def DynamoTask.alone (now : String) : Nat → DynamoTask → DynamoStore →
    Option (Except DynamoError DynamoResponse) × DynamoStore
  | 0, _, store => (none, store)
  | calls + 1, task, store =>
    match task.run now store with
    | (.continues next, after) => next.alone now calls after
    | (.ends result, after) => (some result, after)

/-- **A whole request**, and whether it succeeds. A request has at most four calls. -/
def serialStep (store : DynamoStore) (request : String × DynamoRequest) : Bool × DynamoStore :=
  let ran := (DynamoTask.start request.2).alone request.1 4 store
  (ran.1.any fun result => result.toBool, ran.2)

/-- **The call in which a request takes its effect.** -/
def pointOf (event : DynamoEvent) : Option (String × DynamoRequest) :=
  match dynamoTaskOf event with
  | .start (.createTable name keySchema attrDefs) =>
    if (findTable event.before.shared name).isSome then
      some (event.input.2.call, .createTable name keySchema attrDefs)
    else none
  | .start (.deleteTable name) => some (event.input.2.call, .deleteTable name)
  | .insertTable name keySchema attrDefs =>
    if (findTable event.before.shared name).isSome then none
    else some (event.input.2.call, .createTable name keySchema attrDefs)
  | .storeItem table item => some (event.input.2.call, .putItem table.name item)
  | .deleteItem table key => some (event.input.2.call, .deleteItem table.name key)
  | .storeUpdated table update _ =>
    some (event.input.2.call,
      .updateItem table.name update.key update.updateExpression update.values)
  | _ => none

theorem withTable_some {store : DynamoStore} {tableName : String} {table : DynamoTable}
    (found : findTable store tableName = some table) (next : DynamoTable → DynamoTask) :
    withTable store tableName next = .continues (next table) := by
  unfold withTable
  rw [found]

/-- **A step does what its request does as a whole**, or leaves the tables and the items. -/
theorem pointOf_acts {event : DynamoEvent} (taken : event.Taken dynamoStep)
    (sound : Sound event.before.shared (dynamoTaskOf event)) (undisturbed : Undisturbed event) :
    match pointOf event with
    | none => event.after.shared = event.before.shared
    | some request => serialStep event.before.shared request = (true, event.after.shared) := by
  have shared := (task_taken taken).1
  rw [← dynamoTaskOf] at shared
  unfold Undisturbed at undisturbed
  unfold pointOf
  rw [shared]
  cases task : dynamoTaskOf event with
  | start request =>
    cases request with
    | createTable name keySchema attrDefs =>
      simp only [DynamoTask.run, DynamoRequest.run]
      cases found : findTable event.before.shared name with
      | some table =>
        simp [serialStep, DynamoTask.alone, DynamoTask.run, DynamoRequest.run, found, Except.toBool]
      | none => rfl
    | deleteTable name => rfl
    | putItem tableName item => rfl
    | getItem tableName key => rfl
    | deleteItem tableName key => rfl
    | updateItem tableName key updateExpression values => rfl
  | insertTable name keySchema attrDefs =>
    simp only [DynamoTask.run]
    cases inserted : Dynamodb.insertTable event.before.shared
        { name, keySchema, attributeDefinitions := attrDefs, createdAt := event.input.2.call } with
    | some after =>
      obtain ⟨missing, found, _⟩ := findTable_insertTable inserted
      simp only at missing found
      simp [serialStep, DynamoTask.alone, DynamoTask.run, DynamoRequest.run, missing, inserted, found,
        Except.toBool]
    | none =>
      unfold Dynamodb.insertTable at inserted
      split at inserted
      · rename_i there
        simp only at there
        simp [there]
      · cases inserted
  | describeTable name =>
    simp only [DynamoTask.run]
    cases findTable event.before.shared name with
    | some table => rfl
    | none => rfl
  | storeItem table item =>
    rw [task] at sound
    simp [serialStep, DynamoTask.alone, DynamoTask.run, DynamoRequest.run, withTable_some sound,
      Except.toBool]
  | loadItem table key => rfl
  | deleteItem table key =>
    rw [task] at sound
    simp [serialStep, DynamoTask.alone, DynamoTask.run, DynamoRequest.run, withTable_some sound,
      Except.toBool]
  | loadForUpdate table update => rfl
  | findForUpdate tableName update existing => rfl
  | storeUpdated table update existing =>
    rw [task] at sound undisturbed
    simp only at undisturbed
    simp [serialStep, DynamoTask.alone, DynamoTask.run, DynamoRequest.run, withTable_some sound,
      undisturbed, Except.toBool]

/-! ### What a deletion leaves behind -/

/-- The call writes the row. -/
def DynamoTask.Stores (task : DynamoTask) (row : DynamoItem) : Prop :=
  ∃ table item, (task = .storeItem table item ∨
      ∃ update existing, task = .storeUpdated table update existing ∧ item = update.result existing) ∧
    row.IsAt table.name (extractKey table.keySchema item).1 (extractKey table.keySchema item).2 ∧
    row.item = External.jsonToString item

/-- The client has begun a request. -/
def Begun (history : List DynamoEvent) (client : Nat) : Prop :=
  ∃ begin ∈ history, begin.input.1 = client ∧ begin.before.client client = none

theorem DynamoTask.Stores.itemTable {task : DynamoTask} {row : DynamoItem} (stores : task.Stores row) :
    task.itemTable = some row.tableName ∧ ∀ request, task ≠ .start request := by
  obtain ⟨table, item, rfl | ⟨update, existing, rfl, _⟩, ⟨own, _⟩, _⟩ := stores
  · exact ⟨congrArg some own.symm, fun _ => nofun⟩
  · exact ⟨congrArg some own.symm, fun _ => nofun⟩

/-- **A row after a call**: it was there, or the call wrote it. -/
theorem run_items {now : String} {task : DynamoTask} {store : DynamoStore} {row : DynamoItem}
    (member : row ∈ (task.run now store).2.items) : row ∈ store.items ∨ task.Stores row := by
  cases task with
  | start request =>
    left
    cases request with
    | createTable name keySchema attrDefs =>
      simp only [DynamoTask.run, DynamoRequest.run] at member
      cases found : findTable store name with
      | some table =>
        rw [found] at member
        exact member
      | none =>
        rw [found] at member
        exact member
    | deleteTable name => exact (List.mem_filter.mp member).1
    | putItem tableName item => exact member
    | getItem tableName key => exact member
    | deleteItem tableName key => exact member
    | updateItem tableName key updateExpression values => exact member
  | insertTable name keySchema attrDefs =>
    left
    simp only [DynamoTask.run] at member
    cases inserted : Dynamodb.insertTable store
        { name, keySchema, attributeDefinitions := attrDefs, createdAt := now } with
    | some after =>
      rw [inserted] at member
      unfold Dynamodb.insertTable at inserted
      split at inserted
      · cases inserted
      · cases inserted
        exact member
    | none =>
      rw [inserted] at member
      exact member
  | describeTable name =>
    left
    simp only [DynamoTask.run] at member
    cases found : findTable store name with
    | some table =>
      rw [found] at member
      exact member
    | none =>
      rw [found] at member
      exact member
  | storeItem table item =>
    rcases storeItem_rows member with ⟨old, _⟩ | ⟨place, same⟩
    · exact Or.inl old
    · exact Or.inr ⟨table, item, Or.inl rfl, place, same⟩
  | loadItem table key => exact Or.inl member
  | deleteItem table key => exact Or.inl (List.mem_filter.mp member).1
  | loadForUpdate table update => exact Or.inl member
  | findForUpdate tableName update existing => exact Or.inl member
  | storeUpdated table update existing =>
    rcases storeItem_rows member with ⟨old, _⟩ | ⟨place, same⟩
    · exact Or.inl old
    · exact Or.inr ⟨table, _, Or.inr ⟨update, existing, rfl, rfl⟩, place, same⟩

/-- **Where a call leads**: not to a first call; and the table of an item is looked up by a first call,
or the request has it already. -/
theorem run_itemTable {now : String} {task next : DynamoTask} {store : DynamoStore}
    (goes : (task.run now store).1 = .continues next) :
    (∀ request, next ≠ .start request) ∧
    ∀ name, next.itemTable = some name →
      (∃ request, task = .start request) ∨ task.itemTable = some name := by
  cases task with
  | start request =>
    refine ⟨?_, fun _ _ => Or.inl ⟨request, rfl⟩⟩
    cases request with
    | createTable name keySchema attrDefs =>
      simp only [DynamoTask.run, DynamoRequest.run] at goes
      cases found : findTable store name with
      | some table =>
        rw [found] at goes
        cases goes
      | none =>
        rw [found] at goes
        cases goes
        exact fun _ => nofun
    | deleteTable name => cases goes
    | putItem tableName item =>
      obtain ⟨table, _, rfl⟩ := withTable_continues goes
      exact fun _ => nofun
    | getItem tableName key =>
      obtain ⟨table, _, rfl⟩ := withTable_continues goes
      exact fun _ => nofun
    | deleteItem tableName key =>
      obtain ⟨table, _, rfl⟩ := withTable_continues goes
      exact fun _ => nofun
    | updateItem tableName key updateExpression values =>
      obtain ⟨table, _, rfl⟩ := withTable_continues goes
      exact fun _ => nofun
  | insertTable name keySchema attrDefs =>
    simp only [DynamoTask.run] at goes
    cases inserted : Dynamodb.insertTable store
        { name, keySchema, attributeDefinitions := attrDefs, createdAt := now } with
    | some after =>
      rw [inserted] at goes
      cases goes
      exact ⟨fun _ => nofun, fun _ => nofun⟩
    | none =>
      rw [inserted] at goes
      cases goes
  | describeTable name =>
    simp only [DynamoTask.run] at goes
    cases found : findTable store name with
    | some table =>
      rw [found] at goes
      cases goes
    | none =>
      rw [found] at goes
      cases goes
  | storeItem table item => cases goes
  | loadItem table key => cases goes
  | deleteItem table key => cases goes
  | loadForUpdate table update =>
    cases goes
    exact ⟨fun _ => nofun, fun name own => Or.inr own⟩
  | findForUpdate tableName update existing =>
    obtain ⟨table, found, rfl⟩ := withTable_continues goes
    exact ⟨fun _ => nofun, fun name own => Or.inr ((congrArg some (findTable_name found)).symm.trans own)⟩
  | storeUpdated table update existing => cases goes

theorem stored_not_start {history : List DynamoEvent} {final : DynamoSystem}
    (run : DynamoRun history final) {client : Nat} {task : DynamoTask}
    (held : final.client client = some task) (request : DynamoRequest) : task ≠ .start request := by
  induction run with
  | start => cases held
  | next _ taken ih =>
    rcases task_origin taken held with ⟨_, before⟩ | ⟨_, goes⟩
    · exact ih before
    · exact (run_itemTable goes).1 request

/-- The client whose step is not a first call has begun its request before. -/
theorem held_of_not_start {event : DynamoEvent}
    (under : ∀ request, dynamoTaskOf event ≠ .start request) :
    event.before.client event.input.1 = some (dynamoTaskOf event) := by
  cases held : event.before.client event.input.1 with
  | none =>
    refine absurd ?_ (under event.input.2.request)
    rw [dynamoTaskOf, taskOf, held]
    rfl
  | some task =>
    rw [dynamoTaskOf, taskOf, held]
    rfl

/-- A client that takes no call has no request under way. -/
theorem idle_of_apart {history : List DynamoEvent} {final : DynamoSystem}
    (run : DynamoRun history final) {client : Nat}
    (apart : ∀ event ∈ history, event.input.1 ≠ client) : final.client client = none := by
  induction run with
  | start => rfl
  | @next history event _ taken ih =>
    rw [(System.taken_advance taken).2 client (apart event (by simp)).symm]
    exact ih fun earlier member => apart earlier (List.mem_append_left _ member)

/-- **After a deletion** every request for an item of the table, and every row of it, is of a request
that has begun since. -/
theorem begun_since {past rest : List DynamoEvent} {drop : DynamoEvent} {final : DynamoSystem}
    (run : DynamoRun (past ++ drop :: rest) final) (undisturbed : Undisturbed drop) {name : String}
    (deletes : dynamoTaskOf drop = .start (.deleteTable name)) :
    (∀ client task, final.client client = some task → task.itemTable = some name →
      Begun rest client) ∧
    ∀ row ∈ final.shared.items, row.tableName = name →
      ∃ between write after, rest = between ++ write :: after ∧
        (dynamoTaskOf write).Stores row ∧ Begun between write.input.1 := by
  obtain ⟨runPast, taken, runRest⟩ := run.around
  have runDrop : DynamoRun (past ++ [drop]) drop.after := Run.next runPast taken
  clear run
  obtain ⟨shared, ended⟩ := task_taken taken
  rw [← dynamoTaskOf, deletes] at shared ended
  unfold Undisturbed at undisturbed
  rw [deletes] at undisturbed
  induction runRest with
  | start =>
    refine ⟨fun client task held own => ?_, fun row member own => ?_⟩
    · by_cases same : client = drop.input.1
      · rw [same, ended.2] at held
        cases held
      · rw [(System.taken_advance taken).2 client same] at held
        exact absurd (task.relies_of_itemTable own) (undisturbed client same task held)
    · rw [shared] at member
      exact absurd own (deleteTable_items row member)
  | @next rest event runRest takenEvent ih =>
    obtain ⟨clients, rows⟩ := ih
    have runBefore := runDrop.append runRest
    have mine : ∀ other, (dynamoTaskOf event).itemTable = some other →
        event.before.client event.input.1 = some (dynamoTaskOf event) := by
      intro other own
      refine held_of_not_start fun request same => ?_
      rw [same] at own
      cases own
    have more : ∀ client, Begun rest client → Begun (rest ++ [event]) client := by
      rintro client ⟨begin, member, rest⟩
      exact ⟨begin, List.mem_append_left _ member, rest⟩
    refine ⟨fun client task held own => ?_, fun row member own => ?_⟩
    · rcases task_origin takenEvent held with ⟨_, before⟩ | ⟨rfl, goes⟩
      · exact more client (clients client task before own)
      · rcases (run_itemTable goes).2 name own with ⟨request, first⟩ | already
        · refine ⟨event, by simp, rfl, ?_⟩
          cases idle : event.before.client event.input.1 with
          | none => rfl
          | some task =>
            refine absurd ?_ (stored_not_start runBefore idle request)
            rw [← first, taskOf, idle]
            rfl
        · exact more _ (clients _ _ (mine name already) already)
    · rw [(task_taken takenEvent).1] at member
      rcases run_items member with old | stores
      · obtain ⟨between, write, after, rfl, wrote, begun⟩ := rows row old own
        exact ⟨between, write, after ++ [event], by simp, wrote, begun⟩
      · have found := stores.itemTable.1
        rw [own] at found
        exact ⟨rest, event, [], rfl, stores, clients _ _ (mine name found) found⟩

/-! ### Whole runs -/

/-- **Item updates are atomic, and tables do not resurrect data.** In an undisturbed run the requests
have their effects one after the other, as whole requests that all succeed; a new table is there until
CreateTable has answered; and after a deletion every row of the table was written by a request that
began after it. -/
theorem items_atomic {history : List DynamoEvent} {final : DynamoSystem}
    (run : DynamoRun history final) (undisturbed : ∀ event ∈ history, Undisturbed event) :
    Serializes serialStep .empty (history.filterMap pointOf) final.shared ∧
    (∀ event ∈ history, ∀ name, dynamoTaskOf event = .describeTable name →
      ∃ table, event.output = some (.ok (.table table))) ∧
    ∀ past drop rest name, history = past ++ drop :: rest →
      dynamoTaskOf drop = .start (.deleteTable name) →
      ∀ row ∈ final.shared.items, row.tableName = name →
        ∃ between write after, rest = between ++ write :: after ∧
          (dynamoTaskOf write).Stores row ∧ Begun between write.input.1 := by
  have sound := sound_history run undisturbed
  refine ⟨?_, ?_, ?_⟩
  · refine Serializes.of_run System.shared pointOf run fun event member => ?_
    have acts := pointOf_acts (run.taken_of_mem event member) (sound event member)
      (undisturbed event member)
    cases pointed : pointOf event with
    | none =>
      rw [pointed] at acts
      exact acts
    | some request =>
      rw [pointed] at acts
      exact acts
  · intro event member name task
    have there := sound event member
    rw [task] at there
    obtain ⟨table, found⟩ := Option.isSome_iff_exists.mp there
    have answered := (task_taken (run.taken_of_mem event member)).2
    rw [← dynamoTaskOf, task] at answered
    simp only [DynamoTask.run, found] at answered
    exact ⟨table, answered.1⟩
  · rintro past drop rest name rfl deletes
    exact (begun_since run (undisturbed drop (by simp)) deletes).2

end External

/-! ### Updates that cross, and a put across a deletion -/

section Sample

/-- The text of `{"S": text}`. -/
def sampleTyped : Json → String
  | .obj [("S", .str text)] => "\x7b\"S\":\"" ++ text ++ "\"\x7d"
  | _ => "null"

def sampleMembers : List (String × Json) → String
  | [] => ""
  | [(name, value)] => "\"" ++ name ++ "\":" ++ sampleTyped value
  | (name, value) :: rest => "\"" ++ name ++ "\":" ++ sampleTyped value ++ "," ++ sampleMembers rest

/-- The text of an attribute that is a string, and of an item with such attributes. -/
def sampleText : Json → String
  | .obj [("S", .str text)] => sampleTyped (.obj [("S", .str text)])
  | .obj members => "\x7b" ++ sampleMembers members ++ "\x7d"
  | _ => "null"

def typed (text : String) : Json :=
  .obj [("S", .str text)]

def keySchema : String :=
  "[\x7b\"AttributeName\":\"pk\",\"KeyType\":\"HASH\"\x7d]"

/-- The key of an item, and the item with one of two attributes or with both. -/
def sampleItems : List Json :=
  [.obj [("pk", typed "k")], .obj [("a", typed "1"), ("pk", typed "k")],
    .obj [("b", typed "2"), ("pk", typed "k")],
    .obj [("a", typed "1"), ("b", typed "2"), ("pk", typed "k")]]

/-- `serde_json` on these texts. -/
@[reducible]
def sampleJson : External where
  jsonFromStr text :=
    if text = keySchema then
      some (.arr [.obj [("AttributeName", .str "pk"), ("KeyType", .str "HASH")]])
    else sampleItems.find? fun item => sampleText item == text
  jsonToString := sampleText
  sha256Hex := External.sample.sha256Hex
  md5Hex := External.sample.md5Hex
  parsesF64 := External.sample.parsesF64
  uuid := External.sample.uuid

attribute [local instance] sampleJson

def createRequest : DynamoRequest :=
  .createTable "t" keySchema "[]"

/-- `SET a = :v`, with a string for `:v`. -/
def setRequest (attr value : String) : DynamoRequest :=
  .updateItem "t" (.obj [("pk", typed "k")]) (some ("SET " ++ attr ++ " = :v"))
    (some (.obj [(":v", typed value)]))

def turns (client calls : Nat) (request : DynamoRequest) : List (Nat × Turn String DynamoRequest) :=
  List.replicate calls (client, { call := "now", request })

/-- A table is created, two clients update an item one after the other, and the table is deleted. -/
def orderedTurns : List (Nat × Turn String DynamoRequest) :=
  turns 0 3 createRequest ++ turns 0 4 (setRequest "a" "1") ++ turns 1 4 (setRequest "b" "2") ++
    turns 0 1 (.deleteTable "t")

theorem items_atomic_sample :
    Serializes serialStep .empty
      ((Run.trace dynamoStep DynamoSystem.empty orderedTurns).filterMap pointOf)
      (Run.final dynamoStep DynamoSystem.empty orderedTurns).shared := by
  have undisturbed : ∀ event ∈ Run.trace dynamoStep DynamoSystem.empty orderedTurns,
      Undisturbed event := by
    have first : ∀ event ∈ (Run.trace dynamoStep DynamoSystem.empty orderedTurns)[6]?,
        Undisturbed event := by
      rintro event ⟨⟩
      exact rfl
    have second : ∀ event ∈ (Run.trace dynamoStep DynamoSystem.empty orderedTurns)[10]?,
        Undisturbed event := by
      rintro event ⟨⟩
      exact rfl
    have deleted : ∀ event ∈ (Run.trace dynamoStep DynamoSystem.empty orderedTurns)[11]?,
        Undisturbed event := by
      rintro event ⟨⟩ client away task held
      by_cases other : client = 1
      · subst other
        have idle : (Run.final dynamoStep DynamoSystem.empty (orderedTurns.take 11)).client 1 = none := rfl
        cases held.symm.trans idle
      · have apart : ∀ event ∈ Run.trace dynamoStep DynamoSystem.empty (orderedTurns.take 11),
            event.input.1 ≠ client := by
          intro event member
          have either : ∀ turn ∈ orderedTurns.take 11, turn.1 = 0 ∨ turn.1 = 1 := by decide
          have turn : event.input ∈ orderedTurns.take 11 := by
            rw [← Run.trace_inputs dynamoStep (orderedTurns.take 11) DynamoSystem.empty]
            exact List.mem_map_of_mem member
          rcases either event.input turn with zero | one
          · rw [zero]
            exact Ne.symm away
          · rw [one]
            exact Ne.symm other
        have idle := idle_of_apart (Run.of_trace dynamoStep (orderedTurns.take 11) DynamoSystem.empty) apart
        cases held.symm.trans idle
    intro event member
    simp only [orderedTurns, turns, List.replicate, List.cons_append, List.nil_append, Run.trace,
      List.mem_cons, List.not_mem_nil, or_false] at member
    rcases member with rfl | rfl | rfl | rfl | rfl | rfl | rfl | rfl | rfl | rfl | rfl | rfl
    · trivial
    · trivial
    · trivial
    · trivial
    · trivial
    · trivial
    · exact first _ rfl
    · trivial
    · trivial
    · trivial
    · exact second _ rfl
    · exact deleted _ rfl
  exact (items_atomic (Run.of_trace dynamoStep orderedTurns DynamoSystem.empty) undisturbed).1

/-- Two clients read the item before either of them writes it. -/
def crossedTurns : List (Nat × Turn String DynamoRequest) :=
  turns 0 3 createRequest ++ turns 1 2 (setRequest "a" "1") ++ turns 2 4 (setRequest "b" "2") ++
    turns 1 2 (setRequest "a" "1")

/-- A put has found the table, which is deleted and created again. -/
def acrossTurns : List (Nat × Turn String DynamoRequest) :=
  turns 0 3 createRequest ++ turns 1 1 (.putItem "t" (.obj [("pk", typed "k")])) ++
    turns 0 1 (.deleteTable "t") ++ turns 0 3 createRequest ++
    turns 1 1 (.putItem "t" (.obj [("pk", typed "k")]))

/-- **An update is lost**: three requests succeed, and no order of them leaves what they leave. -/
theorem item_update_lost : ∃ history final, DynamoRun history final ∧
    (history.filterMap fun event => event.output.map Except.toBool) = [true, true, true] ∧
    ∀ order, order.Perm [("now", createRequest), ("now", setRequest "a" "1"),
      ("now", setRequest "b" "2")] → ¬ Serializes serialStep .empty order final.shared := by
  refine ⟨_, _, Run.of_trace dynamoStep crossedTurns DynamoSystem.empty, rfl, ?_⟩
  rintro order permuted ⟨same, succeed⟩
  have both : ∀ order ∈ List.permutations' [("now", createRequest), ("now", setRequest "a" "1"),
      ("now", setRequest "b" "2")],
      (∀ event ∈ Run.trace serialStep .empty order, event.output = true) →
        (Run.final serialStep .empty order).items.map DynamoItem.item ≠
          [sampleText (.obj [("a", typed "1"), ("pk", typed "k")])] := by decide
  have one : (Run.final dynamoStep DynamoSystem.empty crossedTurns).shared.items.map
      DynamoItem.item = [sampleText (.obj [("a", typed "1"), ("pk", typed "k")])] := by
    decide
  rw [same] at one
  exact both order (List.mem_permutations'.mpr permuted) succeed one

/-- **An item comes back**: the new table has the item of a put that began before the deletion. -/
theorem item_resurrected :
    (Run.final dynamoStep DynamoSystem.empty acrossTurns).shared.items.map DynamoItem.item =
      [sampleText (.obj [("pk", typed "k")])] := by
  decide

end Sample

end CloudTwin.Dynamodb
