/-
**Reset and seed** (`control.rs`, `seed.rs`, `aws/bedrock/state.rs`, the sessions of
`gcp/storage/handlers.rs`).

A reset empties the tables that are named after the services. What the server keeps in memory is not
among them: the request counters of the models, and the upload sessions.

* `schemaTables`, `serviceTables` — the tables that a migration makes, and whose they are.
* `clearTables`, `reset` — the reset.
* `freshServer` — a server that has just started.
* `reset_restores` — a reset restores the state of a fresh server if nothing is left in memory.
* `reset_leaves_counters` — a counter that a reset leaves.
-/

import CloudTwin.Gcs.Resumable

namespace CloudTwin.Control

open Gcs (ResumableSession)
open Lib.Text

set_option linter.unusedSectionVars false

/-! ### Tables -/

/-- The tables that the migrations create. -/
def schemaTables : List String :=
  ["cloudtwin_meta", "dynamo_tables", "dynamo_items", "secrets", "azure_containers", "azure_blobs",
    "asb_queues", "asb_topics", "asb_subscriptions", "asb_messages", "gcs_buckets", "gcs_objects",
    "pubsub_topics", "pubsub_subscriptions", "pubsub_messages", "pubsub_ackables", "events",
    "mailbox_messages", "mailbox_attachments", "s3_buckets", "s3_objects", "s3_object_versions",
    "s3_bucket_configs", "s3_multipart_uploads", "s3_multipart_parts", "s3_counters",
    "ses_identities", "ses_messages", "ses_suppressed_destinations", "ses_configuration_sets",
    "ses_event_destinations", "ses_receipt_rule_sets", "ses_receipt_rules", "ses_account_settings",
    "ses_events", "sqs_queues", "sqs_messages", "sqs_fifo_dedup", "sns_topics", "sns_subscriptions",
    "sns_messages", "kms_keys", "kms_aliases", "cognito_user_pools", "cognito_clients",
    "cognito_users", "cognito_auth_codes", "cognito_sessions", "cognito_origins",
    "cognito_refresh_tokens", "cognito_challenges", "cognito_codes"]

/-- `SERVICE_TABLES`: table-name prefixes owned by each resettable service. -/
def serviceTables : List (String × List String) :=
  [("s3", ["s3_"]), ("ses", ["ses_"]), ("sqs", ["sqs_"]), ("sns", ["sns_"]), ("kms", ["kms_"]),
    ("cognito", ["cognito_"]), ("dynamodb", ["dynamo_"]), ("secretsmanager", ["secrets"]),
    ("mailbox", ["mailbox_"]), ("events", ["events"]), ("azure", ["azure_", "asb_"]),
    ("gcp", ["gcs_", "pubsub_"])]

def metaTable : String := "cloudtwin_meta"

/-- A table of the database. -/
abbrev TableName := { table : String // table ∈ schemaTables }

/-- The table belongs to the service. -/
def owns (service table : String) : Bool :=
  (serviceTables.lookup service).any fun prefixes => prefixes.any fun start => startsWith table start

/-! ### The state of the server -/

/-- The database: the rows of the tables, and the last row id of those that count them. -/
structure Database (ρ : Type) where
  rows : TableName → List ρ
  sequence : TableName → Nat

/-- **What the server can change**: the database, the counters of the models, the sessions. -/
@[ext]
structure Server (ρ : Type) where
  database : Database ρ
  counters : List (String × Nat)
  sessions : List (String × ResumableSession)

variable {ρ : Type}

/-- `BedrockState::get_count`. -/
def Server.getCount (server : Server ρ) (modelId : String) : Nat :=
  (server.counters.lookup modelId).getD 0

/-- `BedrockState::increment`: the new count, too. -/
def Server.increment (server : Server ρ) (modelId : String) : Nat × Server ρ :=
  let count := server.getCount modelId + 1
  (count, { server with
    counters := (modelId, count) :: server.counters.filter fun entry => entry.1 != modelId })

/-- The server starts with the tables empty, but for the rows of `cloudtwin_meta`. -/
def emptyDatabase (metaRows : List ρ) : Database ρ where
  rows table := if table.1 = metaTable then metaRows else []
  sequence _ := 0

/-! ### Reset -/

/-- The prefixes of the services that are asked for. -/
def prefixesOf (services : Option (List String)) : List String :=
  (serviceTables.filter fun entry => services.all fun names => names.contains entry.1).flatMap
    Prod.snd

/-- The transaction of a reset. -/
def clearTables (prefixes : List String) (database : Database ρ) : Database ρ :=
  { database with
    rows := fun table =>
      if table.1 ≠ metaTable ∧ (prefixes.any fun start => startsWith table.1 start) then []
      else database.rows table }

/-- The names of the tables that are cleared. -/
def clearedTables (prefixes : List String) : List String :=
  schemaTables.filter fun table =>
    decide (table ≠ metaTable) && prefixes.any fun start => startsWith table start

inductive ResetResponse where
  | unknownService (message : String)
  | reseedFailed (message : String)
  | cleared (tables : List String) (reseeded : Bool)
deriving DecidableEq

/-- `services` of the body. -/
def servicesOf (req : Json) : Option (List String) :=
  match req.get "services" with
  | some (.arr items) => some (items.filterMap fun item => item.asStr.map toAsciiLowercase)
  | _ => none

/-- `reseed` of the body. -/
def reseedOf (req : Json) : Bool :=
  match req.get "reseed" with
  | some (.bool value) => value
  | _ => true

section Seed

-- `seed::apply`: what it makes of the database, and the error that ends it.
variable (seed : Json → Database ρ → Database ρ × Option String)

/-- The startup seed document, if the configuration has one. -/
def reseed (doc : Option Json) (database : Database ρ) : Database ρ × Option String :=
  match doc with
  | some doc => seed doc database
  | none => (database, none)

/-- **A server that has just started.** -/
def freshServer (doc : Option Json) (metaRows : List ρ) : Server ρ where
  database := (reseed seed doc (emptyDatabase metaRows)).1
  counters := []
  sessions := []

/-- **`reset`**, with the body that was parsed. -/
def reset (doc : Option Json) (req : Json) (server : Server ρ) : ResetResponse × Server ρ :=
  match (servicesOf req).bind fun names =>
      names.find? fun name => !(serviceTables.any fun entry => entry.1 == name) with
  | some bad => (.unknownService ("Unknown service: " ++ bad), server)
  | none =>
    let prefixes := prefixesOf (servicesOf req)
    let cleared := { server with database := clearTables prefixes server.database }
    if reseedOf req then
      let (database, error) := reseed seed doc cleared.database
      match error with
      | some message => (.reseedFailed ("reseed failed: " ++ message), { cleared with database })
      | none => (.cleared (clearedTables prefixes) doc.isSome, { cleared with database })
    else (.cleared (clearedTables prefixes) false, cleared)

end Seed

/-! ### Tables and services -/

/-- A prefix of the services asked for is a prefix of one of them. -/
theorem prefixesOf_iff (services : Option (List String)) (table : String) :
    ((prefixesOf services).any fun start => startsWith table start) = true ↔
      ∃ entry ∈ serviceTables, (∀ names, services = some names → entry.1 ∈ names) ∧
        (entry.2.any fun start => startsWith table start) = true := by
  unfold prefixesOf
  rw [List.any_flatMap]
  simp only [List.any_eq_true, List.mem_filter]
  constructor
  · rintro ⟨entry, ⟨member, asked⟩, start, inEntry, begins⟩
    refine ⟨entry, member, ?_, start, inEntry, begins⟩
    rintro names rfl
    simpa using asked
  · rintro ⟨entry, member, asked, start, inEntry, begins⟩
    refine ⟨entry, ⟨member, ?_⟩, start, inEntry, begins⟩
    cases services with
    | none => rfl
    | some names => simpa using asked names rfl

/-- Without a list of services every table is asked for. -/
theorem prefixesOf_none : ∀ table ∈ schemaTables, table ≠ metaTable →
    ((prefixesOf none).any fun start => startsWith table start) = true := by
  decide

theorem lookup_serviceTables : ∀ entry ∈ serviceTables, serviceTables.lookup entry.1 = some entry.2 := by
  decide

/-! ### What a reset restores -/

/-- The rows of `cloudtwin_meta`. -/
def Database.metaRows (database : Database ρ) : List ρ :=
  database.rows ⟨metaTable, by decide⟩

section Seed

variable {seed : Json → Database ρ → Database ρ × Option String} {doc : Option Json} {req : Json}
  {server : Server ρ}

/-- A reset of all services empties all tables but `cloudtwin_meta`. -/
theorem clearTables_all (database : Database ρ) :
    clearTables (prefixesOf none) database =
      { emptyDatabase database.metaRows with sequence := database.sequence } := by
  have rows : (clearTables (prefixesOf none) database).rows =
      (emptyDatabase database.metaRows).rows := by
    funext table
    simp only [clearTables, emptyDatabase]
    by_cases own : table.1 = metaTable
    · rw [if_neg fun both => both.1 own, if_pos own]
      exact congrArg database.rows (Subtype.ext own)
    · rw [if_pos ⟨own, prefixesOf_none table.1 table.2 own⟩, if_neg own]
  exact congrArg (fun rows => Database.mk rows database.sequence) rows

/-- What a reset does, if it knows the services that are asked for. -/
theorem reset_server (known : ∀ names, servicesOf req = some names →
      ∀ name ∈ names, (serviceTables.any fun entry => entry.1 == name) = true) :
    (reset seed doc req server).2 = { server with
      database :=
        if reseedOf req then
          (reseed seed doc (clearTables (prefixesOf (servicesOf req)) server.database)).1
        else clearTables (prefixesOf (servicesOf req)) server.database } := by
  have none : ((servicesOf req).bind fun names =>
      names.find? fun name => !(serviceTables.any fun entry => entry.1 == name)) = none := by
    cases services : servicesOf req with
    | none => rfl
    | some names =>
      refine List.find?_eq_none.mpr fun name member unknown => ?_
      rw [known names services name member] at unknown
      cases unknown
  unfold reset
  rw [none]
  simp only
  by_cases again : reseedOf req = true
  · rw [if_pos again, if_pos again]
    cases error : (reseed seed doc (clearTables (prefixesOf (servicesOf req)) server.database)).2 with
    | none => rfl
    | some message => rfl
  · rw [if_neg again, if_neg again]

/-- **The reset of all services** restores a fresh server, but for what is kept in memory and for the
row ids that are counted on. -/
theorem reset_all (all : servicesOf req = none) :
    (reset seed doc req server).2 = { server with
      database := (reseed seed (if reseedOf req then doc else none)
        { emptyDatabase server.database.metaRows with
          sequence := server.database.sequence }).1 } := by
  have known : ∀ names, servicesOf req = some names →
      ∀ name ∈ names, (serviceTables.any fun entry => entry.1 == name) = true := by
    intro names same
    rw [all] at same
    cases same
  rw [reset_server known, all, clearTables_all]
  by_cases again : reseedOf req = true
  · rw [if_pos again, if_pos again]
  · rw [if_neg again, if_neg again]
    rfl

/-- **Reset restores the initial state** if nothing is left in memory and no row id has been counted;
it never does if something is left in memory, and without a seed only if no row id has been counted. A
reset of listed services empties the tables of these services, and nothing else. -/
theorem reset_restores :
    (servicesOf req = none →
      (server.counters = [] ∧ server.sessions = [] ∧ server.database.sequence = (fun _ => 0) →
        (reset seed doc req server).2 =
          freshServer seed (if reseedOf req then doc else none) server.database.metaRows) ∧
      ((reset seed doc req server).2 =
          freshServer seed (if reseedOf req then doc else none) server.database.metaRows →
        server.counters = [] ∧ server.sessions = []) ∧
      ((if reseedOf req then doc else none) = none →
        ((reset seed doc req server).2 =
            freshServer seed none server.database.metaRows ↔
          server.counters = [] ∧ server.sessions = [] ∧
            server.database.sequence = fun _ => 0))) ∧
    ∀ names, servicesOf req = some names →
      (∀ name ∈ names, ∃ prefixes, (name, prefixes) ∈ serviceTables) → reseedOf req = false →
      (reset seed doc req server).2.counters = server.counters ∧
      (reset seed doc req server).2.sessions = server.sessions ∧
      (reset seed doc req server).2.database.sequence = server.database.sequence ∧
      ∀ table,
        ((∃ name ∈ names, table.1 ≠ metaTable ∧ owns name table.1 = true) →
          (reset seed doc req server).2.database.rows table = []) ∧
        ((¬ ∃ name ∈ names, table.1 ≠ metaTable ∧ owns name table.1 = true) →
          (reset seed doc req server).2.database.rows table = server.database.rows table) := by
  refine ⟨fun all => ⟨?_, ?_, ?_⟩, ?_⟩
  · rintro ⟨counters, sessions, sequence⟩
    rw [reset_all all, sequence]
    exact Server.ext rfl counters sessions
  · intro same
    rw [reset_all all] at same
    exact ⟨congrArg Server.counters same, congrArg Server.sessions same⟩
  · intro noSeed
    rw [reset_all all, noSeed]
    constructor
    · intro same
      exact ⟨congrArg Server.counters same, congrArg Server.sessions same,
        congrArg (fun server => server.database.sequence) same⟩
    · rintro ⟨counters, sessions, sequence⟩
      rw [sequence]
      exact Server.ext rfl counters sessions
  · intro names asked known kept
    have registered : ∀ others, servicesOf req = some others →
        ∀ name ∈ others, (serviceTables.any fun entry => entry.1 == name) = true := by
      intro others same name member
      rw [asked] at same
      cases same
      obtain ⟨prefixes, entry⟩ := known name member
      exact List.any_eq_true.mpr ⟨_, entry, beq_self_eq_true name⟩
    rw [reset_server registered, kept, asked]
    refine ⟨rfl, rfl, rfl, fun table => ?_⟩
    have named : ((prefixesOf (some names)).any fun start => startsWith table.1 start) = true ↔
        ∃ name ∈ names, owns name table.1 = true := by
      rw [prefixesOf_iff]
      constructor
      · rintro ⟨entry, inTables, inNames, begins⟩
        refine ⟨entry.1, inNames names rfl, ?_⟩
        unfold owns
        rw [lookup_serviceTables entry inTables]
        exact begins
      · rintro ⟨name, inNames, owned⟩
        obtain ⟨prefixes, entry⟩ := known name inNames
        refine ⟨(name, prefixes), entry, fun others same => ?_, ?_⟩
        · cases same
          exact inNames
        · unfold owns at owned
          rw [lookup_serviceTables _ entry] at owned
          exact owned
    show (_ → (clearTables (prefixesOf (some names)) server.database).rows table = []) ∧
      (_ → (clearTables (prefixesOf (some names)) server.database).rows table = _)
    simp only [clearTables]
    constructor
    · rintro ⟨name, inNames, apart, owned⟩
      exact if_pos ⟨apart, named.mpr ⟨name, inNames, owned⟩⟩
    · intro foreign
      refine if_neg fun ⟨apart, begins⟩ => foreign ?_
      obtain ⟨name, inNames, owned⟩ := named.mp begins
      exact ⟨name, inNames, apart, owned⟩

end Seed

/-! ### A server that is reset -/

section Sample

def topicsTable : TableName := ⟨"sns_topics", by decide⟩

def aliasesTable : TableName := ⟨"kms_aliases", by decide⟩

def bucketsTable : TableName := ⟨"s3_buckets", by decide⟩

/-- A seed of one bucket, whose name is the document. -/
def seedBucket (doc : Json) (database : Database String) : Database String × Option String :=
  match doc.asStr with
  | some bucket =>
    ({ database with
      rows := fun table => if table = bucketsTable then [bucket] else database.rows table }, none)
  | none => (database, some "a bucket has a name")

/-- A server with a topic, an alias and a bucket that is not of the seed. -/
def filledServer : Server String where
  database.rows table :=
    if table = topicsTable then ["orders"] else if table = aliasesTable then ["alias/app"]
    else if table = bucketsTable then ["uploads"] else if table.1 = metaTable then ["schema"] else []
  database.sequence _ := 0
  counters := []
  sessions := []

/-- The server has counted a request for a model. -/
def countedServer : Server String :=
  (filledServer.increment "model").2

/-- A reset of SNS that does not seed. -/
def onlySns : Json :=
  .obj [("reseed", .bool false), ("services", .arr [.str "SNS"])]

/-- A reset of all services leaves the seed, and a reset of SNS takes the topic alone. -/
theorem reset_restores_sample :
    (reset seedBucket (some (.str "seeded")) (.obj []) filledServer).2 =
        freshServer seedBucket (some (.str "seeded")) ["schema"] ∧
      (reset seedBucket (some (.str "seeded")) onlySns countedServer).2.database.rows topicsTable = [] ∧
      (reset seedBucket (some (.str "seeded")) onlySns countedServer).2.database.rows aliasesTable =
        ["alias/app"] ∧
      (reset seedBucket (some (.str "seeded")) onlySns countedServer).2.database.rows bucketsTable =
        ["uploads"] ∧
      (reset seedBucket (some (.str "seeded")) onlySns countedServer).2.getCount "model" = 1 := by
  have listed := @reset_restores _ seedBucket (some (.str "seeded")) onlySns countedServer
  obtain ⟨counters, _, _, rows⟩ := listed.2 ["sns"] (by decide)
    (fun name member => ⟨["sns_"], by rw [List.mem_singleton.mp member]; decide⟩) rfl
  refine ⟨(reset_restores.1 rfl).1 ⟨rfl, rfl, rfl⟩, ?_, ?_, ?_, ?_⟩
  · exact (rows topicsTable).1 ⟨"sns", List.mem_singleton_self _, by decide, by decide⟩
  · refine (rows aliasesTable).2 ?_
    rintro ⟨name, member, _, owned⟩
    rw [List.mem_singleton.mp member] at owned
    exact absurd owned (by decide)
  · refine (rows bucketsTable).2 ?_
    rintro ⟨name, member, _, owned⟩
    rw [List.mem_singleton.mp member] at owned
    exact absurd owned (by decide)
  · rw [Server.getCount, counters]
    decide

/-! ### A counter that a reset leaves -/

/-- A seed that changes nothing. -/
def noSeed (_ : Json) (database : Database Unit) : Database Unit × Option String :=
  (database, none)

/-- A server without rows. -/
def sampleServer : Server Unit :=
  freshServer noSeed none []

/-- **A counter is left** by a reset of a server that has served one request for a model. -/
theorem reset_leaves_counters :
    (reset noSeed none (.obj []) (sampleServer.increment "model").2).2 ≠ freshServer noSeed none [] := by
  intro same
  have counters := congrArg (fun server : Server Unit => server.getCount "model") same
  exact absurd counters (by decide)

end Sample

end CloudTwin.Control
