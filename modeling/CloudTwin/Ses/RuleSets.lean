/-
**SES receipt rule sets** (`aws/ses/receiving.rs`, `schema.rs`).

A request is a sequence of calls on the database, and other requests' calls can come between any two
of them. An edit of a rule set reads its rules in one call, checks the buckets and topics of a new
rule, and writes all rules back in another. The creation times are left out; whether a bucket or a
topic exists is part of a client's turn.

* `Edit` — the changes of a list of rules, and `Edit.apply`, what they make of it.
* `Task` — the call that a request makes next.
* `ruleStep` — the step of a client.
-/

import CloudTwin.Ses.Receiving
import CloudTwin.Lib.Machine

namespace CloudTwin.Ses

open Lib Lib.Text

/-! ### Errors and data -/

inductive SesErrorKind where
  | badRequest
  | alreadyExists
  | cannotDelete
  | ruleSetDoesNotExist
  | ruleDoesNotExist
  | invalidS3Configuration
  | invalidSnsTopic
  | internal
  deriving DecidableEq

structure SesError where
  kind : SesErrorKind
  message : String
  deriving DecidableEq

abbrev SesResult := Except SesError

def badRequest (message : String) : SesError :=
  ⟨.badRequest, message⟩

def ruleSetMissing (name : String) : SesError :=
  ⟨.ruleSetDoesNotExist, "Rule set does not exist: " ++ name⟩

def ruleMissing (name : String) : SesError :=
  ⟨.ruleDoesNotExist, "Rule does not exist: " ++ name⟩

/-- A row of `ses_receipt_rule_sets`. -/
structure RuleSet where
  name : String
  active : Bool
  deriving DecidableEq

/-- A row of `ses_receipt_rules`. -/
structure RuleRow where
  ruleSet : String
  name : String
  position : Nat
  rule : Json

structure RuleStore where
  sets : List RuleSet
  rules : List RuleRow

def RuleStore.empty : RuleStore where
  sets := []
  rules := []

/-- `rule["Name"].as_str()`. -/
def ruleName (rule : Json) : Option String :=
  (rule.get "Name").bind Json.asStr

/-! ### Normal rules -/

def membersOf : Json → List (String × Json)
  | .obj members => members
  | _ => []

/-- The member with the name set to the value; the members stand in the order of their names. -/
def setMember (members : List (String × Json)) (name : String) (value : Json) :
    List (String × Json) :=
  match members with
  | [] => [(name, value)]
  | member :: rest =>
    if member.1 = name then (name, value) :: rest
    else if name < member.1 then (name, value) :: member :: rest
    else member :: setMember rest name value

/-- A missing list, or one that was a single value. -/
def normalList (members : List (String × Json)) (name : String) : List (String × Json) :=
  match members.lookup name with
  | some (.arr _) => members
  | some (.obj fields) => setMember members name (.arr [.obj fields])
  | some (.str text) => setMember members name (.arr [.str text])
  | _ => setMember members name (.arr [])

/-- Normalize a rule from Query-decoded JSON (string booleans, missing lists). -/
def normalizeRule (rule : Json) : Json :=
  let given := membersOf rule
  let enabled := setMember given "Enabled" (.bool (asBool (given.lookup "Enabled") false))
  let scanned := setMember enabled "ScanEnabled"
    (.bool (asBool (given.lookup "ScanEnabled") false))
  let secured :=
    if ((scanned.lookup "TlsPolicy").bind Json.asStr).isNone then
      setMember scanned "TlsPolicy" (.str "Optional")
    else scanned
  .obj (normalList (normalList secured "Recipients") "Actions")

/-! ### Edits of a list of rules -/

inductive Edit where
  | createRule (rule : Json) (after : Option String)
  | updateRule (rule : Json)
  | deleteRule (name : String)
  | setRulePosition (name : String) (after : Option String)
  | reorder (names : List String)

/-- The index of the rule with the name. -/
def ruleIndex (rules : List Json) (name : String) : SesResult Nat :=
  okOr (rules.findIdx? fun rule => ruleName rule == some name) (ruleMissing name)

/-- Where a rule goes: first, or after the named one. -/
def positionAfter (rules : List Json) (after : Option String) : SesResult Nat :=
  match after with
  | some name => do
    return (← ruleIndex rules name) + 1
  | none => .ok 0

/-- The rule of a request is normalized before anything else. -/
def Edit.normalized : Edit → Edit
  | .createRule rule after => .createRule (normalizeRule rule) after
  | .updateRule rule => .updateRule (normalizeRule rule)
  | edit => edit

/-- The rule that is to be validated. -/
def Edit.newRule : Edit → Option Json
  | .createRule rule _ => some rule
  | .updateRule rule => some rule
  | _ => none

/-- What is checked before the rule is validated. -/
def Edit.precheck (edit : Edit) (rules : List Json) : SesResult Unit :=
  match edit with
  | .createRule rule _ =>
    let name := (ruleName rule).getD ""
    rejectIf (rules.any fun other => ruleName other == some name)
      ⟨.alreadyExists, "Rule already exists: " ++ name⟩
  | .updateRule rule => do
    let _ ← ruleIndex rules ((ruleName rule).getD "")
  | _ => .ok ()

/-- The rules named, in the order of the names. -/
def pickRules (rules : List Json) : List String → SesResult (List Json)
  | [] => .ok []
  | name :: rest => do
    let rule ← okOr (rules.find? fun rule => ruleName rule == some name) (ruleMissing name)
    return rule :: (← pickRules rules rest)

/-- **What the edit makes of the rules.** -/
def Edit.apply (edit : Edit) (rules : List Json) : SesResult (List Json) :=
  match edit with
  | .createRule rule after => do
    let position ← positionAfter rules after
    return rules.insertIdx position rule
  | .updateRule rule => do
    let index ← ruleIndex rules ((ruleName rule).getD "")
    return rules.set index rule
  | .deleteRule name => .ok (rules.filter fun rule => !(ruleName rule == some name))
  | .setRulePosition name after => do
    let index ← ruleIndex rules name
    let rest := rules.eraseIdx index
    let position ← positionAfter rest after
    return rest.insertIdx position (rules.getD index .null)
  | .reorder names => do
    rejectIf (names.length ≠ rules.length)
      (badRequest "RuleNames must list every rule in the rule set.")
    pickRules rules names

/-- The buckets and topics that exist. -/
structure Places where
  bucketExists : String → Bool
  topicExists : String → Bool

/-- The topic that a member of an action names has to exist. -/
def validateTopic (places : Places) (key : String) (value : Json) : SesResult Unit :=
  match (value.get "TopicArn").bind Json.asStr with
  | some topic => rejectIf (places.topicExists topic = false)
      ⟨.invalidSnsTopic, "Invalid SNS topic <" ++ topic ++ "> in " ++ key ++ "."⟩
  | none => .ok ()

def validateTopics (places : Places) : List (String × Json) → SesResult Unit
  | [] => .ok ()
  | (key, value) :: rest => do
    validateTopic places key value
    validateTopics places rest

/-- The bucket of an S3 action has to exist. -/
def validateBucket (places : Places) (action : Json) : SesResult Unit :=
  match action.get "S3Action" with
  | some target =>
    let bucket := ((target.get "BucketName").bind Json.asStr).getD ""
    rejectIf (places.bucketExists bucket = false)
      ⟨.invalidS3Configuration, "Could not write to bucket: " ++ bucket⟩
  | none => .ok ()

def validateAction (places : Places) (action : Json) : SesResult Unit := do
  validateBucket places action
  validateTopics places (membersOf action)

def validateActions (places : Places) : List Json → SesResult Unit
  | [] => .ok ()
  | action :: rest => do
    validateAction places action
    validateActions places rest

def validateRule (places : Places) (rule : Json) : SesResult Unit := do
  rejectIf (((ruleName rule).getD "").isEmpty) (badRequest "Rule.Name is required.")
  validateActions places (actionsOf rule)

/-! ### Calls on the database -/

/-- `rule_set_created(name).is_some()`. -/
def setExists (store : RuleStore) (name : String) : Bool :=
  store.sets.any fun set => set.name == name

def activeRuleSetName (store : RuleStore) : Option String :=
  (store.sets.find? fun set => set.active).map RuleSet.name

/-- `SELECT rule .. WHERE rule_set = ?1 ORDER BY position`. -/
def rulesOf (store : RuleStore) (set : String) : List Json :=
  ((store.rules.filter fun row => row.ruleSet == set).mergeSort
    fun first second => first.position ≤ second.position).map RuleRow.rule

/-- `INSERT INTO ses_receipt_rule_sets`; `none` when the name is taken. -/
def insertSet (store : RuleStore) (name : String) : Option RuleStore :=
  if setExists store name then none
  else some { store with sets := store.sets ++ [{ name := name, active := false }] }

def deleteSet (store : RuleStore) (name : String) : RuleStore where
  sets := store.sets.filter fun set => set.name != name
  rules := store.rules.filter fun row => row.ruleSet != name

/-- Activate the set, or deactivate all rule sets with `none`. -/
def activate (store : RuleStore) (name : Option String) : RuleStore :=
  { store with sets := store.sets.map fun set => { set with active := some set.name == name } }

/-- The rows of the rules, numbered from a position. -/
def numbered (set : String) : Nat → List Json → List RuleRow
  | _, [] => []
  | position, rule :: rest =>
    { ruleSet := set, name := (ruleName rule).getD "", position := position, rule := rule } ::
      numbered set (position + 1) rest

def rowNames (rules : List Json) : List String :=
  rules.map fun rule => (ruleName rule).getD ""

/-- `write_rules`, in one transaction; `none` when two rules have one name. -/
def writeRules (store : RuleStore) (set : String) (rules : List Json) : Option RuleStore :=
  if (rowNames rules).Nodup then
    some { store with
      rules := (store.rules.filter fun row => row.ruleSet != set) ++ numbered set 0 rules }
  else none

/-! ### Requests -/

inductive RuleRequest where
  | createRuleSet (name : String)
  | cloneRuleSet (name original : String)
  | deleteRuleSet (name : String)
  | setActiveRuleSet (name : Option String)
  | edit (set : String) (edit : Edit)

/-- **The call that a request makes next.** -/
inductive RuleTask where
  /-- The first call of a request: whether its rule set is there. -/
  | begin (request : RuleRequest)
  | cloneRules (name original : String)
  /-- Whether the name of a clone is free. -/
  | cloneCreated (name : String) (rules : List Json)
  /-- The row of a new set; a clone has rules for it. -/
  | insertSet (name : String) (fill : Option (List Json))
  | checkActive (name : String)
  | deleteSet (name : String)
  | activate (name : Option String)
  | readRules (set : String) (edit : Edit)
  /-- The buckets and topics of the new rule. -/
  | validate (set : String) (edit : Edit) (rule : Json) (rules : List Json)
  /-- `write_rules`, of rules that an edit made of those it read, or that a clone copied. -/
  | write (set : String) (edit : Option Edit) (read rules : List Json)

inductive RuleProgress where
  | continues (task : RuleTask)
  | ends (result : SesResult Unit)

def RuleProgress.of (result : SesResult RuleTask) : RuleProgress :=
  match result with
  | .ok task => .continues task
  | .error error => .ends (.error error)

def alreadyExists (name : String) : SesError :=
  ⟨.alreadyExists, "Rule set already exists: " ++ name⟩

/-- The first call of a request. -/
def beginRequest (request : RuleRequest) (store : RuleStore) : SesResult RuleTask :=
  match request with
  | .createRuleSet name => do
    rejectIf (name.isEmpty) (badRequest "RuleSetName is required.")
    rejectIf (setExists store name) (alreadyExists name)
    return .insertSet name none
  | .cloneRuleSet name original => do
    rejectIf (setExists store original = false) (ruleSetMissing original)
    return .cloneRules name original
  | .deleteRuleSet name => do
    rejectIf (setExists store name = false) (ruleSetMissing name)
    return .checkActive name
  | .setActiveRuleSet name => do
    rejectIf (name.any fun name => setExists store name = false) (ruleSetMissing (name.getD ""))
    return .activate name
  | .edit set edit => do
    rejectIf (setExists store set = false) (ruleSetMissing set)
    return .readRules set edit.normalized

/-- What an edit does with the rules that it has read and checked. -/
def prepareWrite (set : String) (edit : Edit) (read : List Json) : SesResult RuleTask := do
  let rules ← edit.apply read
  return .write set (some edit) read rules

/-- What an edit does with the rules that it has read. -/
def afterRead (set : String) (edit : Edit) (read : List Json) : SesResult RuleTask := do
  edit.precheck read
  edit.newRule.elim (prepareWrite set edit read) fun rule => .ok (.validate set edit rule read)

/-- What an edit does once its rule is valid. -/
def afterValidation (places : Places) (set : String) (edit : Edit) (rule : Json)
    (read : List Json) : SesResult RuleTask := do
  validateRule places rule
  prepareWrite set edit read

def uniqueViolation : SesError :=
  ⟨.internal, "UNIQUE constraint failed"⟩

/-- A clone goes on to write the rules it copied. -/
def afterInsert (name : String) (fill : Option (List Json)) : RuleProgress :=
  fill.elim (.ends (.ok ())) fun rules => .continues (.write name none [] rules)

/-- What the name of a clone has to pass. -/
def freeName (store : RuleStore) (name : String) (rules : List Json) : SesResult RuleTask := do
  rejectIf (name.isEmpty) (badRequest "RuleSetName is required.")
  rejectIf (setExists store name) (alreadyExists name)
  return .insertSet name (some rules)

/-- The active set is not deleted. -/
def inactiveSet (store : RuleStore) (name : String) : SesResult RuleTask := do
  rejectIf (activeRuleSetName store = some name)
    ⟨.cannotDelete, "Cannot delete active rule set: " ++ name⟩
  return .deleteSet name

/-- **The next call of a request.** -/
def RuleTask.run (task : RuleTask) (places : Places) (store : RuleStore) :
    RuleProgress × RuleStore :=
  match task with
  | .begin request => (.of (beginRequest request store), store)
  | .cloneRules name original => (.continues (.cloneCreated name (rulesOf store original)), store)
  | .cloneCreated name rules => (.of (freeName store name rules), store)
  | .insertSet name fill =>
    match Ses.insertSet store name with
    | none => (.ends (.error uniqueViolation), store)
    | some after => (afterInsert name fill, after)
  | .checkActive name => (.of (inactiveSet store name), store)
  | .deleteSet name => (.ends (.ok ()), Ses.deleteSet store name)
  | .activate name => (.ends (.ok ()), Ses.activate store name)
  | .readRules set edit => (.of (afterRead set edit (rulesOf store set)), store)
  | .validate set edit rule read => (.of (afterValidation places set edit rule read), store)
  | .write set _ _ rules =>
    match writeRules store set rules with
    | none => (.ends (.error uniqueViolation), store)
    | some after => (.ends (.ok ()), after)

/-! ### Clients -/

/-- A turn of a client: what exists elsewhere, and the request that it begins when it has none. -/
structure RuleTurn where
  places : Places
  request : RuleRequest

def ruleStep (store : RuleStore) (client : Option RuleTask) (turn : RuleTurn) :
    Option (SesResult Unit) × RuleStore × Option RuleTask :=
  match (client.getD (.begin turn.request)).run turn.places store with
  | (.continues next, after) => (none, after, some next)
  | (.ends result, after) => (some result, after, none)

abbrev RuleSystem := System RuleStore (Option RuleTask)

abbrev RuleEvent := Event RuleSystem (Nat × RuleTurn) (Option (SesResult Unit))

def RuleSystem.empty : RuleSystem where
  shared := RuleStore.empty
  client _ := none

/-- **A run of requests**: any number of clients, their calls in any order. -/
abbrev RuleRun (history : List RuleEvent) (final : RuleSystem) : Prop :=
  Run (System.step ruleStep) RuleSystem.empty history final

/-- The call that the step makes. -/
def ruleTaskOf (event : RuleEvent) : RuleTask :=
  (event.before.client event.input.1).getD (.begin event.input.2.request)

end CloudTwin.Ses
