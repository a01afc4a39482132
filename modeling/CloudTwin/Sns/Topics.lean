/-
**SNS topics and subscriptions** (`aws/sns/service.rs`, `aws/sns/schema.rs`).

A request is a sequence of calls on the database. CreateTopic looks for the topic and inserts it;
Subscribe looks for the topic, looks for a subscription of the endpoint and inserts one, in three calls,
and the schema has no constraint on what it inserts.

* `validateTopicAttr`, `validateSubscriptionAttr` — what attributes have to look like.
* `findTopic`, `listSubscriptions`, `insertSubscription`, … — the calls.
* `SnsTask`, `SnsTask.run` — the call that a request makes next, and where it leads.
-/

import CloudTwin.Lib.Tasks
import CloudTwin.Sns.Delivery

namespace CloudTwin.Sns

open Lib Lib.Text Sqs

set_option linter.unusedSectionVars false

/-! ### Errors and rows -/

def SnsError.notFound (message : String) : SnsError :=
  ⟨"NotFound", message⟩

def SnsError.tagLimit : SnsError :=
  ⟨"TagLimitExceeded", "Could not complete request: tag quota of per resource exceeded"⟩

def SnsError.internal (message : String) : SnsError :=
  ⟨"InternalError", message⟩

/-- A row of `sns_topics`. -/
structure TopicRow where
  arn : String
  name : String
  attributes : BTreeMap String
  tags : BTreeMap String
  fifoSeq : Nat

/-- A row of `sns_subscriptions`. -/
structure SubscriptionRow where
  arn : String
  topicArn : String
  protocol : String
  endpoint : String
  attributes : BTreeMap String

/-- The tables, and how many UUIDs have been drawn. -/
structure SnsStore where
  topics : List TopicRow
  subscriptions : List SubscriptionRow
  drawn : Nat

def SnsStore.empty : SnsStore where
  topics := []
  subscriptions := []
  drawn := 0

/-- `SnsTopic::is_fifo`. -/
def TopicRow.isFifo (topic : TopicRow) : Bool :=
  (topic.attributes["FifoTopic"]?).any fun value => eqIgnoreAsciiCase value "true"

/-- `SnsSubscription::raw_delivery`. -/
def SubscriptionRow.rawDelivery (subscription : SubscriptionRow) : Bool :=
  (subscription.attributes["RawMessageDelivery"]?).any fun value => eqIgnoreAsciiCase value "true"

def topicArn (name : String) : String :=
  "arn:aws:sns:" ++ region ++ ":" ++ accountId ++ ":" ++ name

/-! ### Attributes -/

def protocols : List String :=
  ["http", "https", "email", "email-json", "sms", "sqs", "application", "lambda", "firehose"]

def subscriptionAttrs : List String :=
  ["DeliveryPolicy", "FilterPolicy", "FilterPolicyScope", "RawMessageDelivery", "RedrivePolicy",
    "SubscriptionRoleArn", "ReplayPolicy"]

def topicAttrs : List String :=
  ["DisplayName", "Policy", "DeliveryPolicy", "KmsMasterKeyId", "SignatureVersion", "TracingConfig",
    "FifoTopic", "ContentBasedDeduplication", "ArchivePolicy", "DataProtectionPolicy",
    "FifoThroughputScope"]

def normalizeBool (name value : String) : SnsResult String :=
  if toAsciiLowercase value = "true" then .ok "true"
  else if toAsciiLowercase value = "false" then .ok "false"
  else .error (.invalid ("Invalid parameter: Attributes Reason: " ++ name ++ ": Invalid value [" ++
    value ++ "]. Must be true or false."))

/-- **The functions of `filter.rs`**: what a filter policy has to look like, and which messages it
lets through in its scope. -/
class SnsFilter where
  validate : String → Except String Unit
  passes : Json → String → MsgAttrs → String → Bool

/-- Every policy is taken, and lets everything through. -/
@[reducible]
def SnsFilter.sample : SnsFilter where
  validate _ := .ok ()
  passes _ _ _ _ := true

section External

variable [External] [SnsFilter]

def requireJson (name value : String) : SnsResult String :=
  match External.jsonFromStr value with
  | some _ => .ok value
  | none => .error (.invalid ("Invalid parameter: " ++ name ++ ": failed to parse JSON."))

/-- Validate and normalize one subscription attribute. -/
def validateSubscriptionAttr (name value : String) : SnsResult String :=
  if name ∉ subscriptionAttrs then
    .error (.invalid ("Invalid parameter: AttributeName: " ++ name))
  else if name = "RawMessageDelivery" then normalizeBool name value
  else if name = "FilterPolicy" ∧ value ≠ "" then
    match SnsFilter.validate value with
    | .ok _ => .ok value
    | .error message => .error (.invalid message)
  else if name = "FilterPolicyScope" then
    if value = "MessageAttributes" ∨ value = "MessageBody" then .ok value
    else .error (.invalid ("Invalid parameter: Attributes Reason: FilterPolicyScope: Invalid " ++
      "value. Must be one of: MessageAttributes, MessageBody"))
  else if (name = "DeliveryPolicy" ∨ name = "RedrivePolicy") ∧ value ≠ "" then requireJson name value
  else .ok value

def validateTopicAttr (name value : String) : SnsResult String :=
  let feedback := endsWith name "FeedbackRoleArn" || endsWith name "FeedbackSampleRate"
  if name ∉ topicAttrs ∧ feedback = false then
    .error (.invalid ("Invalid parameter: AttributeName: " ++ name))
  else if name = "FifoTopic" ∨ name = "ContentBasedDeduplication" then normalizeBool name value
  else if (name = "Policy" ∨ name = "DeliveryPolicy" ∨ name = "DataProtectionPolicy" ∨
      name = "ArchivePolicy") ∧ value ≠ "" then requireJson name value
  else .ok value

/-- The attributes of a new topic. -/
def validateTopicAttrs : List (String × String) → BTreeMap String → SnsResult (BTreeMap String)
  | [], attrs => .ok attrs
  | (name, value) :: rest, attrs => do
    let value ← validateTopicAttr name value
    validateTopicAttrs rest (attrs.insert name value)

/-- The attributes of a new subscription, without the empty ones. -/
def validateSubscriptionAttrs :
    List (String × String) → BTreeMap String → SnsResult (BTreeMap String)
  | [], attrs => .ok attrs
  | (name, value) :: rest, attrs => do
    let value ← validateSubscriptionAttr name value
    validateSubscriptionAttrs rest (if value = "" then attrs else attrs.insert name value)

def validTopicName (name : String) : Bool :=
  let base := (stripSuffix name ".fifo").getD name
  !base.isEmpty && decide (name.utf8ByteSize ≤ 256) &&
    base.toList.all fun char => isAsciiAlphanumeric char || char == '-' || char == '_'

def endpointOk (protocol endpoint : String) : Bool :=
  if protocol = "http" then startsWith endpoint "http://"
  else if protocol = "https" then startsWith endpoint "https://"
  else if protocol = "email" ∨ protocol = "email-json" then endpoint.toList.contains '@'
  else if protocol = "sqs" then startsWith endpoint "arn:aws:sqs:" || startsWith endpoint "http"
  else !endpoint.isEmpty

/-! ### Calls -/

def findTopic (store : SnsStore) (arn : String) : Option TopicRow :=
  store.topics.find? fun topic => topic.arn == arn

/-- `INSERT … ON CONFLICT(name) DO NOTHING`. -/
def insertTopic (store : SnsStore) (arn name : String) (attributes tags : BTreeMap String) : SnsStore :=
  if store.topics.any fun topic => topic.name == name then store
  else { store with topics := store.topics ++ [{ arn, name, attributes, tags, fifoSeq := 0 }] }

/-- The topic goes with its subscriptions. -/
def deleteTopic (store : SnsStore) (arn : String) : SnsStore :=
  { store with
    subscriptions := store.subscriptions.filter fun row => row.topicArn != arn
    topics := store.topics.filter fun topic => topic.arn != arn }

def SubscriptionRow.isFor (row : SubscriptionRow) (topicArn protocol endpoint : String) : Bool :=
  row.topicArn == topicArn && row.protocol == protocol && row.endpoint == endpoint

def findEndpoint (store : SnsStore) (topicArn protocol endpoint : String) : Option SubscriptionRow :=
  store.subscriptions.find? fun row => row.isFor topicArn protocol endpoint

/-- `INSERT INTO sns_subscriptions`; the primary key is the ARN. -/
def insertSubscription (store : SnsStore) (row : SubscriptionRow) : Option SnsStore :=
  if store.subscriptions.any fun other => other.arn == row.arn then none
  else some { store with subscriptions := store.subscriptions ++ [row] }

def findSubscription (store : SnsStore) (arn : String) : Option SubscriptionRow :=
  store.subscriptions.find? fun row => row.arn == arn

def unsubscribe (store : SnsStore) (arn : String) : SnsStore :=
  { store with subscriptions := store.subscriptions.filter fun row => row.arn != arn }

/-- `UPDATE sns_subscriptions SET attributes = ?1 WHERE arn = ?2`. -/
def updateSubscription (store : SnsStore) (arn : String) (attributes : BTreeMap String) : SnsStore :=
  { store with subscriptions := store.subscriptions.map fun row =>
      if row.arn = arn then { row with attributes } else row }

/-- `ORDER BY arn`. -/
def listSubscriptions (store : SnsStore) (topicArn : String) : List SubscriptionRow :=
  (store.subscriptions.filter fun row => row.topicArn == topicArn).mergeSort
    fun first second => decide (first.arn ≤ second.arn)

/-! ### Requests -/

inductive SnsRequest where
  | createTopic (name : String) (attributes tags : BTreeMap String)
  | deleteTopic (arn : String)
  | subscribe (topicArn protocol endpoint : String) (attributes : BTreeMap String)
  | setSubscriptionAttributes (arn name value : String)
  | unsubscribe (arn : String)

/-- The call that a request makes next. -/
inductive SnsTask where
  | begin (request : SnsRequest)
  | insertTopic (arn name : String) (attributes tags : BTreeMap String)
  | findEndpoint (topicArn protocol endpoint : String) (attributes : BTreeMap String)
  | insertSubscription (row : SubscriptionRow)
  | updateSubscription (arn : String) (attributes : BTreeMap String)

abbrev SnsProgress := Progress SnsTask (SnsResult String)

def differentTags : SnsError :=
  .invalid "Invalid parameter: Tags Reason: Topic already exists with different tags"

def fifoName : SnsError :=
  .invalid ("Invalid parameter: Fifo Topic names must end with .fifo and must be made up of only " ++
    "uppercase and lowercase ASCII letters, numbers, underscores, and hyphens, and must be between " ++
    "1 and 256 characters long.")

/-- What CreateTopic checks before its first call. -/
def checkTopic (name : String) (attributes tags : BTreeMap String) : SnsResult (BTreeMap String) := do
  rejectIf (validTopicName name = false) (.invalid "Invalid parameter: Topic Name")
  let attrs ← validateTopicAttrs attributes.toList ∅
  rejectIf ((attrs["FifoTopic"]?).any (· == "true") ≠ endsWith name ".fifo") fifoName
  rejectIf (50 < tags.size) SnsError.tagLimit
  return attrs

/-- CreateTopic: the topic is looked for. -/
def beginCreateTopic (store : SnsStore) (name : String) (attributes tags : BTreeMap String) :
    SnsProgress :=
  match checkTopic name attributes tags with
  | .error error => .ends (.error error)
  | .ok attrs =>
    match findTopic store (topicArn name) with
    | none => .continues (.insertTopic (topicArn name) name attrs tags)
    | some existing =>
      if tags.toList.any fun (key, value) => (existing.tags[key]?).any (· != value) then
        .ends (.error differentTags)
      else .ends (.ok (topicArn name))

/-- Subscribe: the topic is looked for, and the parameters are checked. -/
def beginSubscribe (store : SnsStore) (topicArn protocol endpoint : String)
    (attributes : BTreeMap String) : SnsResult SnsTask := do
  let _ ← okOr (findTopic store topicArn) (SnsError.notFound "Topic does not exist")
  rejectIf (protocol ∉ protocols) (.invalid ("Invalid parameter: Amazon SNS does not support this " ++
    "protocol string: " ++ protocol))
  rejectIf (endpointOk protocol endpoint = false)
    (.invalid ("Invalid parameter: " ++ protocol ++ " Endpoint"))
  let attrs ← validateSubscriptionAttrs attributes.toList ∅
  return .findEndpoint topicArn protocol endpoint attrs

/-- SetSubscriptionAttributes: the subscription is read. -/
def beginSetAttributes (store : SnsStore) (arn name value : String) : SnsResult SnsTask := do
  let row ← okOr (findSubscription store arn) (SnsError.notFound "Subscription does not exist")
  let value ← validateSubscriptionAttr name value
  return .updateSubscription arn
    (if value = "" then row.attributes.erase name else row.attributes.insert name value)

def differentAttributes : SnsError :=
  .invalid ("Invalid parameter: Attributes Reason: Subscription already exists with different " ++
    "attributes")

/-- Subscribe: a subscription of the endpoint is looked for. -/
def afterEndpoint (store : SnsStore) (topicArn protocol endpoint : String)
    (attributes : BTreeMap String) : SnsProgress × SnsStore :=
  match findEndpoint store topicArn protocol endpoint with
  | some row =>
    if attributes.toList.any fun (name, value) => row.attributes[name]? != some value then
      (.ends (.error differentAttributes), store)
    else (.ends (.ok row.arn), store)
  | none =>
    (.continues (.insertSubscription
      { arn := topicArn ++ ":" ++ External.uuid store.drawn, topicArn, protocol, endpoint
        attributes }), { store with drawn := store.drawn + 1 })

/-- **One call**, and where it leads. -/
def SnsTask.run (task : SnsTask) (store : SnsStore) : SnsProgress × SnsStore :=
  match task with
  | .begin (.createTopic name attributes tags) =>
    (beginCreateTopic store name attributes tags, store)
  | .begin (.deleteTopic arn) => (.ends (.ok arn), Sns.deleteTopic store arn)
  | .begin (.subscribe topicArn protocol endpoint attributes) =>
    (.orEnd (beginSubscribe store topicArn protocol endpoint attributes) .error, store)
  | .begin (.setSubscriptionAttributes arn name value) =>
    (.orEnd (beginSetAttributes store arn name value) .error, store)
  | .begin (.unsubscribe arn) =>
    if startsWith arn "arn:" then (.ends (.ok arn), Sns.unsubscribe store arn)
    else (.ends (.error (.invalid "Invalid parameter: SubscriptionArn")), store)
  | .insertTopic arn name attributes tags =>
    (.ends (.ok arn), Sns.insertTopic store arn name attributes tags)
  | .findEndpoint topicArn protocol endpoint attributes =>
    afterEndpoint store topicArn protocol endpoint attributes
  | .insertSubscription row =>
    match Sns.insertSubscription store row with
    | some after => (.ends (.ok row.arn), after)
    | none =>
      (.ends (.error (.internal "UNIQUE constraint failed: sns_subscriptions.arn")), store)
  | .updateSubscription arn attributes =>
    (.ends (.ok arn), Sns.updateSubscription store arn attributes)

abbrev SnsSystem := System SnsStore (Option SnsTask)

abbrev SnsEvent := Event SnsSystem (Nat × Turn Unit SnsRequest) (Option (SnsResult String))

/-- **The step of a client.** -/
def snsStep (system : SnsSystem) (turn : Nat × Turn Unit SnsRequest) :
    Option (SnsResult String) × SnsSystem :=
  System.step (advance SnsTask.begin fun _ task store => task.run store) system turn

def SnsSystem.empty : SnsSystem where
  shared := SnsStore.empty
  client _ := none

abbrev SnsRun : List SnsEvent → SnsSystem → Prop :=
  Run snsStep SnsSystem.empty

end External

end CloudTwin.Sns
