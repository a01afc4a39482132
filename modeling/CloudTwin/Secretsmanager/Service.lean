/-
**Secrets Manager** (`aws/secretsmanager/service.rs`).

A creation is three calls: a look for the name, the insertion, and a second look. Other requests come
between them; the primary key of the table is what keeps a name from being created twice.

* `SecretTable` — the rows, a table with a key; `SecretTask.run`, the calls.
* `holds` — what the table is for: the value of each name.
* `vaultStep`, `effectOf` — the abstract vault, and the effect of a call on it.
* `call_effect`, `call_answer` — one call does its effect, and answers what the vault holds.
* `vault_serial` — every run is a serial run of the vault; who is told that a secret is gone after it was
  inserted was overtaken by a deletion.
-/

import CloudTwin.Lib.Keyed
import CloudTwin.Lib.Serial
import CloudTwin.Lib.Tasks
import Mathlib.Data.List.Sort
import Mathlib.Data.String.Basic

namespace CloudTwin.Secretsmanager

open Lib

/-! ### The table -/

structure Secret where
  name : String
  arn : String
  secretString : Option String
  createdAt : String
  updatedAt : String
deriving DecidableEq

/-- The rows of `secrets`, with the primary key. -/
abbrev SecretTable := Keyed Secret.name

namespace SecretTable

/-- A row whose name is not there; the primary key refuses others. -/
def insert (table : SecretTable) (row : Secret) : Option SecretTable :=
  if table.find row.name = none then some (Keyed.insert table row) else none

theorem insert_absent {table : SecretTable} {row : Secret} (absent : table.find row.name = none) :
    SecretTable.insert table row = some (Keyed.insert table row) :=
  if_pos absent

theorem insert_present {table : SecretTable} {row : Secret} (present : table.find row.name ≠ none) :
    SecretTable.insert table row = none :=
  if_neg present

/-- A row with its value and the time of the update. -/
def rewrite (value now : String) (row : Secret) : Secret :=
  { row with secretString := some value, updatedAt := now }

theorem rewrite_name {value now : String} (row : Secret) : (rewrite value now row).name = row.name := rfl

def update (table : SecretTable) (name value now : String) : SecretTable :=
  table.modify name (rewrite value now) rewrite_name

def delete (table : SecretTable) (name : String) : SecretTable :=
  table.erase name

/-- `ORDER BY name`. -/
def sorted (table : SecretTable) : List Secret :=
  table.rows.mergeSort fun first second => first.name ≤ second.name

end SecretTable

/-! ### The code -/

def secretArn (name : String) : String := "arn:aws:secretsmanager:us-east-1:000000000000:secret:" ++ name

inductive SecretRequest where
  | create (name : String) (secretString : Option String)
  | get (secretId : String)
  | put (secretId secretString : String)
  | list
  | delete (secretId : String)

/-- What a request does next. -/
inductive SecretTask where
  | check (name : String) (secretString : Option String)
  | insert (name : String) (secretString : Option String)
  | reread (name : String)
  | get (secretId : String)
  | put (secretId secretString : String)
  | list
  | delete (secretId : String)

inductive SecretReply where
  | created (secret : Secret)
  | exists' (message : String)
  | value (secret : Secret)
  | notFound (message : String)
  | updated
  | listed (secrets : List Secret)
  | deleted
  | internal (message : String)

/-- What a call meets: the clock, and whether the database fails. -/
structure SecretCall where
  now : String
  fails : Bool

def firstTask : SecretRequest → SecretTask
  | .create name secretString => .check name secretString
  | .get secretId => .get secretId
  | .put secretId secretString => .put secretId secretString
  | .list => .list
  | .delete secretId => .delete secretId

def missing (secretId : String) : SecretReply :=
  .notFound ("ResourceNotFoundException: secret " ++ secretId ++ " not found")

/-- A call of the database that went through. -/
def SecretTask.work (now : String) : SecretTask → SecretTable → Progress SecretTask SecretReply × SecretTable
  | .check name secretString, table =>
    match table.find name with
    | some _ => (.ends (.exists' ("ResourceExistsException: secret " ++ name ++ " already exists")), table)
    | none => (.continues (.insert name secretString), table)
  | .insert name secretString, table =>
    match SecretTable.insert table ⟨name, secretArn name, secretString, now, now⟩ with
    | some after => (.continues (.reread name), after)
    | none => (.ends (.internal "UNIQUE constraint failed: secrets.name"), table)
  | .reread name, table =>
    match table.find name with
    | some secret => (.ends (.created secret), table)
    | none => (.ends (.internal "not found after insert"), table)
  | .get secretId, table =>
    match table.find secretId with
    | some secret => (.ends (.value secret), table)
    | none => (.ends (missing secretId), table)
  | .put secretId secretString, table =>
    match table.find secretId with
    | some _ => (.ends .updated, SecretTable.update table secretId secretString now)
    | none => (.ends (missing secretId), table)
  | .list, table => (.ends (.listed (SecretTable.sorted table)), table)
  | .delete secretId, table => (.ends .deleted, SecretTable.delete table secretId)

/-- **One call.** -/
def SecretTask.run (call : SecretCall) (task : SecretTask) (table : SecretTable) :
    Progress SecretTask SecretReply × SecretTable :=
  if call.fails then (.ends (.internal "database"), table) else task.work call.now table

/-! ### The vault -/

/-- The value of each name; a secret may have none. -/
abbrev Vault := String → Option (Option String)

def holds (table : SecretTable) : Vault := fun name => (table.find name).map Secret.secretString

inductive VaultOperation where
  | create (name : String) (value : Option String)
  | put (name value : String)
  | delete (name : String)
deriving DecidableEq

/-- A name is created only where it is not, and written only where it is. -/
def vaultStep (vault : Vault) : VaultOperation → Bool × Vault
  | .create name value => ((vault name).isNone, Function.update vault name (some value))
  | .put name value => ((vault name).isSome, Function.update vault name (some (some value)))
  | .delete name => (true, Function.update vault name none)

/-- The effect of a call. -/
def SecretTask.effect (call : SecretCall) (task : SecretTask) (table : SecretTable) : Option VaultOperation :=
  if call.fails then none
  else
    match task with
    | .insert name value => if (table.find name).isNone then some (.create name value) else none
    | .put name value => if (table.find name).isSome then some (.put name value) else none
    | .delete name => some (.delete name)
    | _ => none

theorem holds_insert {table : SecretTable} {row : Secret} (absent : table.find row.name = none) :
    holds (Keyed.insert table row) = Function.update (holds table) row.name (some row.secretString) := by
  unfold holds
  rw [Keyed.find_insert row absent]
  exact Keyed.map_update _ _ _ _

theorem holds_update {table : SecretTable} {name : String} {row : Secret} (value now : String)
    (found : table.find name = some row) :
    holds (SecretTable.update table name value now) =
      Function.update (holds table) name (some (some value)) := by
  unfold holds SecretTable.update
  rw [Keyed.find_modify table SecretTable.rewrite_name found]
  exact Keyed.map_update _ _ _ _

theorem holds_delete (table : SecretTable) (name : String) :
    holds (SecretTable.delete table name) = Function.update (holds table) name none := by
  unfold holds SecretTable.delete
  rw [Keyed.find_erase]
  exact Keyed.map_update _ _ _ _

/-- **What one call does to the vault.** -/
theorem call_effect (call : SecretCall) (task : SecretTask) (table : SecretTable) :
    match task.effect call table with
    | none => holds (task.run call table).2 = holds table
    | some operation => vaultStep (holds table) operation = (true, holds (task.run call table).2) := by
  unfold SecretTask.effect SecretTask.run
  cases call.fails with
  | true => rfl
  | false =>
    simp only [Bool.false_eq_true, if_false]
    cases task with
    | check name value =>
      simp only [SecretTask.work]
      split <;> rfl
    | insert name value =>
      cases found : table.find name with
      | none =>
        have inserted := @SecretTable.insert_absent table
          ⟨name, secretArn name, value, call.now, call.now⟩ found
        have away : (holds table name).isNone = true := by
          unfold holds
          rw [found]
          rfl
        simp only [found, Option.isNone_none, if_true, SecretTask.work, inserted]
        show ((holds table name).isNone, _) = _
        rw [away, @holds_insert table ⟨name, secretArn name, value, call.now, call.now⟩ found]
      | some row =>
        have refused := @SecretTable.insert_present table
          ⟨name, secretArn name, value, call.now, call.now⟩
          (fun none' => Option.some_ne_none row (found.symm.trans none'))
        simp only [found, Option.isNone_some, Bool.false_eq_true, if_false, SecretTask.work, refused]
    | reread name =>
      simp only [SecretTask.work]
      split <;> rfl
    | get name =>
      simp only [SecretTask.work]
      split <;> rfl
    | put name value =>
      cases found : table.find name with
      | none =>
        simp only [Option.isSome_none, Bool.false_eq_true, if_false, SecretTask.work, found]
      | some row =>
        have stored : (holds table name).isSome = true := by
          unfold holds
          rw [found]
          rfl
        simp only [Option.isSome_some, if_true, SecretTask.work, found]
        show ((holds table name).isSome, _) = _
        rw [stored, holds_update value call.now found]
    | list => rfl
    | delete name =>
      show (true, Function.update (holds table) name none) = (true, holds (SecretTable.delete table name))
      rw [holds_delete]

/-! ### Answers -/

/-- The names of the table carry their own ARN. -/
def Addressed (table : SecretTable) : Prop := ∀ row ∈ table.rows, row.arn = secretArn row.name

/-- What a reply says of the vault as it is found. -/
def Answers (vault : Vault) : SecretReply → Prop
  | .created secret => vault secret.name = some secret.secretString ∧ secret.arn = secretArn secret.name
  | .value secret => vault secret.name = some secret.secretString ∧ secret.arn = secretArn secret.name
  | .exists' message => ∃ name, message = "ResourceExistsException: secret " ++ name ++ " already exists" ∧
      (vault name).isSome
  | .notFound message => ∃ name, message = "ResourceNotFoundException: secret " ++ name ++ " not found" ∧
      vault name = none
  | .listed secrets => secrets.Pairwise (fun first second => first.name < second.name) ∧
      ∀ name value, vault name = some value ↔ ∃ secret ∈ secrets, secret.name = name ∧ secret.secretString = value
  | _ => True

theorem addressed_run (call : SecretCall) (task : SecretTask) {table : SecretTable} (addressed : Addressed table) :
    Addressed (task.run call table).2 := by
  unfold SecretTask.run
  split
  · exact addressed
  · cases task with
    | check name value =>
      simp only [SecretTask.work]
      split <;> exact addressed
    | insert name value =>
      cases found : table.find name with
      | none =>
        have inserted := @SecretTable.insert_absent table
          ⟨name, secretArn name, value, call.now, call.now⟩ found
        simp only [SecretTask.work, inserted]
        intro row member
        rw [@Keyed.rows_insert _ _ _ _ table ⟨name, secretArn name, value, call.now, call.now⟩ found] at member
        rcases List.mem_append.mp member with old | new
        · exact addressed row old
        · rw [List.mem_singleton.mp new]
      | some row =>
        have refused := @SecretTable.insert_present table
          ⟨name, secretArn name, value, call.now, call.now⟩
          (fun none' => Option.some_ne_none row (found.symm.trans none'))
        simp only [SecretTask.work, refused]
        exact addressed
    | reread name =>
      simp only [SecretTask.work]
      split <;> exact addressed
    | get name =>
      simp only [SecretTask.work]
      split <;> exact addressed
    | put name value =>
      simp only [SecretTask.work]
      split
      · intro row member
        obtain ⟨old, inside, rfl⟩ := List.mem_map.mp member
        rw [Keyed.key_changed SecretTable.rewrite_name, ← addressed old inside]
        unfold Keyed.changed
        split <;> rfl
      · exact addressed
    | list => exact addressed
    | delete name => exact fun row member => addressed row (List.mem_filter.mp member).1

theorem sorted_answers (table : SecretTable) : Answers (holds table) (.listed (SecretTable.sorted table)) := by
  have permuted : (SecretTable.sorted table).Perm table.rows := List.mergeSort_perm _ _
  constructor
  · have weakly : (SecretTable.sorted table).Pairwise fun first second => first.name ≤ second.name := by
      have trans : ∀ a b c : Secret, decide (a.name ≤ b.name) = true → decide (b.name ≤ c.name) = true →
          decide (a.name ≤ c.name) = true := fun a b c one two =>
        decide_eq_true ((of_decide_eq_true one).trans (of_decide_eq_true two))
      have total : ∀ a b : Secret, (decide (a.name ≤ b.name) || decide (b.name ≤ a.name)) = true := by
        intro a b
        rw [Bool.or_eq_true, decide_eq_true_iff, decide_eq_true_iff]
        exact le_total a.name b.name
      exact (List.pairwise_mergeSort trans total table.rows).imp fun le => of_decide_eq_true le
    have distinct : ((SecretTable.sorted table).map Secret.name).Nodup := (permuted.map Secret.name).nodup_iff.mpr table.unique
    have apart : (SecretTable.sorted table).Pairwise fun first second => first.name ≠ second.name :=
      List.pairwise_map.mp distinct
    exact weakly.imp₂ (fun _ _ le ne => lt_of_le_of_ne le ne) apart
  · intro name value
    unfold holds
    constructor
    · intro stored
      obtain ⟨row, found, rfl⟩ := Option.map_eq_some_iff.mp stored
      exact ⟨row, permuted.mem_iff.mpr (Keyed.find_some found).1, (Keyed.find_some found).2, rfl⟩
    · rintro ⟨row, member, rfl, rfl⟩
      have inside := permuted.mem_iff.mp member
      rw [Keyed.find_mem inside, Option.map_some]

/-- **What one call answers.** -/
theorem call_answer (call : SecretCall) (task : SecretTask) {table : SecretTable} (addressed : Addressed table)
    {reply : SecretReply} (ends : (task.run call table).1 = .ends reply) : Answers (holds table) reply := by
  have stored : ∀ {name row}, table.find name = some row →
      holds table row.name = some row.secretString ∧ row.arn = secretArn row.name := by
    intro name row found
    obtain ⟨inside, same⟩ := Keyed.find_some found
    refine ⟨?_, addressed row inside⟩
    unfold holds
    rw [same, found]
    rfl
  have away : ∀ {name}, table.find name = none → holds table name = none := by
    intro name found
    unfold holds
    rw [found]
    rfl
  unfold SecretTask.run at ends
  split at ends
  · cases ends
    trivial
  · cases task with
    | check name value =>
      simp only [SecretTask.work] at ends
      split at ends
      · rename_i row found
        cases ends
        refine ⟨name, rfl, ?_⟩
        unfold holds
        rw [found]
        rfl
      · cases ends
    | insert name value =>
      simp only [SecretTask.work] at ends
      split at ends
      · cases ends
      · cases ends
        trivial
    | reread name =>
      simp only [SecretTask.work] at ends
      split at ends
      · rename_i row found
        cases ends
        exact stored found
      · cases ends
        trivial
    | get name =>
      simp only [SecretTask.work] at ends
      split at ends
      · rename_i row found
        cases ends
        exact stored found
      · rename_i found
        cases ends
        exact ⟨name, rfl, away found⟩
    | put name value =>
      simp only [SecretTask.work] at ends
      split at ends
      · cases ends
        trivial
      · rename_i found
        cases ends
        exact ⟨name, rfl, away found⟩
    | list =>
      cases ends
      exact sorted_answers table
    | delete name =>
      cases ends
      trivial

/-! ### Whole runs -/

abbrev SecretSystem := System SecretTable (Option SecretTask)

abbrev SecretEvent := Event SecretSystem (Nat × Turn SecretCall SecretRequest) (Option SecretReply)

def secretStep : SecretSystem → Nat × Turn SecretCall SecretRequest → Option SecretReply × SecretSystem :=
  System.step (advance firstTask SecretTask.run)

def SecretSystem.empty : SecretSystem := ⟨Keyed.empty, fun _ => none⟩

def effectOf (event : SecretEvent) : Option VaultOperation :=
  (taskOf firstTask event).effect event.input.2.call event.before.shared

variable {history : List SecretEvent} {final : SecretSystem}

theorem step_effect {event : SecretEvent} (taken : event.Taken secretStep) :
    match effectOf event with
    | none => holds event.after.shared = holds event.before.shared
    | some operation =>
      vaultStep (holds event.before.shared) operation = (true, holds event.after.shared) := by
  have effect := call_effect event.input.2.call (taskOf firstTask event) event.before.shared
  rw [(task_taken taken).1]
  exact effect

/-- A name that is there stays until it is deleted. -/
theorem stays_until_deleted {start stop : SecretSystem} {name : String}
    (ran : Run secretStep start history stop) (there : (holds start.shared name).isSome)
    (kept : ∀ event ∈ history, effectOf event ≠ some (.delete name)) : (holds stop.shared name).isSome := by
  refine @Run.invariant_along _ _ _ _ _ _ _ (fun system => (holds system.shared name).isSome) ran there
    fun event member taken before => ?_
  have effect := step_effect taken
  have other := kept event member
  cases acted : effectOf event with
  | none =>
    rw [acted] at effect
    simp only at effect
    rw [effect]
    exact before
  | some operation =>
    rw [acted] at effect other
    simp only at effect
    have updated : (vaultStep (holds event.before.shared) operation).2 = holds event.after.shared :=
      congrArg Prod.snd effect
    rw [← updated]
    cases operation with
    | create own value =>
      show Option.isSome (Function.update (holds event.before.shared) own _ name) = true
      by_cases same : name = own
      · rw [same, Function.update_self]
        rfl
      · rw [Function.update_of_ne same]
        exact before
    | put own value =>
      show Option.isSome (Function.update (holds event.before.shared) own _ name) = true
      by_cases same : name = own
      · rw [same, Function.update_self]
        rfl
      · rw [Function.update_of_ne same]
        exact before
    | delete own =>
      show Option.isSome (Function.update (holds event.before.shared) own _ name) = true
      have apart : name ≠ own := fun same => other (same ▸ rfl)
      rw [Function.update_of_ne apart]
      exact before

/-- A call that leads to the second look has created the secret. -/
theorem created_before_reread {call : SecretCall} {task : SecretTask} {table : SecretTable} {name : String}
    (goes : (task.run call table).1 = .continues (.reread name)) :
    ∃ value, task.effect call table = some (.create name value) := by
  unfold SecretTask.run at goes
  unfold SecretTask.effect
  split at goes
  · cases goes
  · rename_i runs
    rw [if_neg runs]
    cases task with
    | check own value =>
      simp only [SecretTask.work] at goes
      split at goes <;> cases goes
    | insert own value =>
      cases found : table.find own with
      | none =>
        have inserted := @SecretTable.insert_absent table
          ⟨own, secretArn own, value, call.now, call.now⟩ found
        simp only [SecretTask.work, inserted] at goes
        cases goes
        exact ⟨value, by simp [found]⟩
      | some row =>
        have refused := @SecretTable.insert_present table
          ⟨own, secretArn own, value, call.now, call.now⟩
          (fun none' => Option.some_ne_none row (found.symm.trans none'))
        simp only [SecretTask.work, refused] at goes
        cases goes
    | reread own =>
      simp only [SecretTask.work] at goes
      split at goes <;> cases goes
    | get own =>
      simp only [SecretTask.work] at goes
      split at goes <;> cases goes
    | put own value =>
      simp only [SecretTask.work] at goes
      split at goes <;> cases goes
    | list => cases goes
    | delete own => cases goes

/-- Only a second look tells that a secret is gone. -/
theorem gone_reread {call : SecretCall} {task : SecretTask} {table : SecretTable}
    (ends : (task.run call table).1 = .ends (.internal "not found after insert")) :
    ∃ name, task = .reread name ∧ table.find name = none := by
  have database : "database" ≠ "not found after insert" := by decide
  have unique : "UNIQUE constraint failed: secrets.name" ≠ "not found after insert" := by decide
  unfold SecretTask.run at ends
  split at ends
  · exact absurd (SecretReply.internal.inj (Progress.ends.inj ends)) database
  · cases task with
    | check own value =>
      simp only [SecretTask.work] at ends
      split at ends <;> cases ends
    | insert own value =>
      simp only [SecretTask.work] at ends
      split at ends
      · cases ends
      · exact absurd (SecretReply.internal.inj (Progress.ends.inj ends)) unique
    | reread own =>
      simp only [SecretTask.work] at ends
      split at ends
      · cases ends
      · rename_i found
        exact ⟨own, rfl, found⟩
    | get own =>
      simp only [SecretTask.work] at ends
      split at ends <;> cases ends
    | put own value =>
      simp only [SecretTask.work] at ends
      split at ends <;> cases ends
    | list => cases ends
    | delete own => cases ends

theorem reread_held {client : Option SecretTask} {request : SecretRequest} {name : String}
    (task : client.getD (firstTask request) = .reread name) : client = some (.reread name) := by
  cases client with
  | some held => exact congrArg some task
  | none => cases request <;> cases task

/-- **The vault is serial.** In every run, the insertions, updates and deletions that go through are a
serial run of the vault, so that a name is created twice only around a deletion; each reply says what the
vault holds when it is given; and a client that is told that a secret is gone after it inserted it was
overtaken by a deletion between its two calls. -/
theorem vault_serial (ran : Run secretStep SecretSystem.empty history final) :
    Serializes vaultStep (fun _ => none) (history.filterMap effectOf) (holds final.shared) ∧
    (∀ event ∈ history, ∀ reply, event.output = some reply → Answers (holds event.before.shared) reply) ∧
    ∀ past event rest, history = past ++ event :: rest →
      event.output = some (.internal "not found after insert") → ∃ before insertion between name value,
        past = before ++ insertion :: between ∧ insertion.input.1 = event.input.1 ∧
          effectOf insertion = some (.create name value) ∧
            ∃ deletion ∈ between, effectOf deletion = some (.delete name) := by
  refine ⟨?_, fun event member reply replied => ?_, ?_⟩
  · refine Serializes.of_run (fun system : SecretSystem => holds system.shared) effectOf ran fun event member => ?_
    have acts := step_effect (ran.taken_of_mem event member)
    cases pointed : effectOf event with
    | none =>
      rw [pointed] at acts
      exact acts
    | some operation =>
      rw [pointed] at acts
      exact acts
  · have addressed := @Run.invariant_before _ _ _ _ _ _ _ (fun system => Addressed system.shared) ran
      (fun row member => absurd member List.not_mem_nil)
      (fun event taken before => by
        rw [(task_taken taken).1]
        exact addressed_run _ _ before) event member
    obtain ⟨_, step⟩ := task_taken (ran.taken_of_mem event member)
    split at step
    · rw [step.1] at replied
      cases replied
    · rename_i result ends
      rw [step.1] at replied
      obtain rfl := Option.some.inj replied
      exact call_answer _ _ addressed ends
  · rintro past event rest rfl replied
    obtain ⟨until', taken, _⟩ := ran.around
    obtain ⟨_, step⟩ := task_taken taken
    split at step
    · rw [step.1] at replied
      cases replied
    · rename_i result ends
      rw [step.1] at replied
      obtain rfl := Option.some.inj replied
      obtain ⟨name, task, found⟩ := gone_reread ends
      have held := reread_held task
      obtain ⟨before, insertion, between, rfl, first, since⟩ := until'.since
        (fun system => system.client event.input.1 = some (.reread name)) (fun none' => by cases none') held
      obtain ⟨_, inserts, meanwhile⟩ := until'.around
      have leads := since insertion List.mem_cons_self
      rcases task_origin inserts leads with ⟨_, already⟩ | ⟨own, goes⟩
      · exact absurd already first
      · obtain ⟨value, created⟩ := created_before_reread goes
        refine ⟨before, insertion, between, name, value, rfl, own.symm, created, ?_⟩
        by_contra kept
        have effect := step_effect inserts
        rw [show effectOf insertion = some (.create name value) from created] at effect
        simp only at effect
        have there : (holds insertion.after.shared name).isSome := by
          have updated : (vaultStep (holds insertion.before.shared) (.create name value)).2 =
              holds insertion.after.shared := congrArg Prod.snd effect
          rw [← updated]
          show Option.isSome (Function.update (holds insertion.before.shared) name _ name) = true
          rw [Function.update_self]
          rfl
        have still := stays_until_deleted meanwhile there fun deletion member deletes =>
          kept ⟨deletion, member, deletes⟩
        unfold holds at still
        rw [found] at still
        cases still

/-! ### A deletion between the calls -/

/-- One client creates a secret, and another deletes it before the second look. -/
def overtakenTurns : List (Nat × Turn SecretCall SecretRequest) :=
  [(0, ⟨⟨"t0", false⟩, .create "db" (some "one")⟩), (0, ⟨⟨"t1", false⟩, .list⟩),
    (1, ⟨⟨"t2", false⟩, .delete "db"⟩), (0, ⟨⟨"t3", false⟩, .list⟩)]

theorem vault_serial_overtaken : Serializes vaultStep (fun _ => none)
    [.create "db" (some "one"), .delete "db"]
    (holds (Run.final secretStep SecretSystem.empty overtakenTurns).shared) := by
  have serial := (vault_serial (Run.of_trace secretStep overtakenTurns SecretSystem.empty)).1
  have effects : (Run.trace secretStep SecretSystem.empty overtakenTurns).filterMap effectOf =
      [.create "db" (some "one"), .delete "db"] := by rfl
  rwa [effects] at serial

end CloudTwin.Secretsmanager
