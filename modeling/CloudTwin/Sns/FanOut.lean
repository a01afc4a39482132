/-
**Publishing to a topic** (`aws/sns/delivery.rs`, `aws/sns/service.rs`, `sqs::send_with`).

A publish reads the topic, draws the sequence number of a FIFO topic, lists the subscriptions, and sends
to the queue of each in a call of its own. A send that fails is logged, and tried again on the
dead-letter queue of the subscription if it names one. HTTP and mail deliveries do not touch queues and
are left out, and so is the log of published messages, which nothing reads.

* `envelope`, `passesFilter` — what a subscription is sent, and whether.
* `sendWith` — one send, by ARN, URL or name of the queue.
* `PublishTask`, `PublishTask.run` — the call that a publish makes next, and where it leads.
-/

import CloudTwin.Lib.Substring
import CloudTwin.Sns.Topics
import CloudTwin.Sqs.Rows

namespace CloudTwin.Sns

open Lib Lib.Text Sqs

set_option linter.unusedSectionVars false

/-! ### Data -/

/-- The tables of topics and of queues, and the configured URL of the service. -/
structure Services where
  baseUrl : String
  topics : SnsStore
  queues : Store

/-- What a publish names, beyond what it sends. -/
structure TopicRequest extends PublishRequest where
  topicArn : Option String
  phoneNumber : Option String

/-- One message being fanned out. -/
structure Notification extends Outgoing where
  messageId : String
  topicArn : String
  subject : Option String
  timestamp : String
  sequenceNumber : Option String

structure PublishResult where
  messageId : String
  sequenceNumber : Option String

/-- What a call reads besides the tables: the clock, its text, and the UUIDs that it may draw. -/
structure PublishCall where
  now : Int
  timestamp : String
  messageId : String
  dedupUuid : String

section External

variable [External] [SnsFilter]

/-! ### Messages -/

def signaturePlaceholder : String :=
  "Y2xvdWR0d2luLWxpdGUgZG9lcyBub3Qgc2lnbiBTTlMgbWVzc2FnZXMgLSB0aGlzIGlzIGEgcGxhY2Vob2xkZXIu"

/-- The value of an attribute in the document: base64 of a binary one. -/
def attributeText (attr : MsgAttr) : String :=
  if attr.isBinary then Base64.standardEncode (attr.binaryValue.getD [])
  else attr.stringValue.getD ""

def attributeMember (entry : String × MsgAttr) : String × Json :=
  (entry.1, .obj [("Type", .str entry.2.dataType), ("Value", .str (attributeText entry.2))])

/-- The `MessageAttributes` of the document, if there are any. -/
def attributesMember (attrs : MsgAttrs) : Option (String × Json) :=
  if attrs.isEmpty then none
  else some ("MessageAttributes", .obj (attrs.toList.map attributeMember))

def textMember (name : String) (text : String) : Option (String × Json) :=
  some (name, .str text)

/-- The members of the notification, in key order. -/
def envelopeMembers (base : String) (subscription : SubscriptionRow) (note : Notification) :
    List (Option (String × Json)) :=
  [textMember "Message" (note.bodyFor subscription.protocol),
    attributesMember note.attributes,
    textMember "MessageId" note.messageId,
    note.sequenceNumber.bind (textMember "SequenceNumber"),
    textMember "Signature" signaturePlaceholder,
    textMember "SignatureVersion" "1",
    textMember "SigningCertURL" (base ++ "/SimpleNotificationService-cloudtwin.pem"),
    note.subject.bind (textMember "Subject"),
    textMember "Timestamp" note.timestamp,
    textMember "TopicArn" note.topicArn,
    textMember "Type" "Notification",
    textMember "UnsubscribeURL"
      (base ++ "/?Action=Unsubscribe&SubscriptionArn=" ++ subscription.arn)]

/-- **The standard SNS notification JSON document.** -/
def envelope (baseUrl : String) (subscription : SubscriptionRow) (note : Notification) : Json :=
  .obj ((envelopeMembers (trimEndMatches '/' baseUrl) subscription note).filterMap id)

def passesFilter (subscription : SubscriptionRow) (note : Notification) : Bool :=
  match subscription.attributes["FilterPolicy"]? with
  | none => true
  | some policy =>
    match External.jsonFromStr policy with
    | none => true
    | some policy =>
      SnsFilter.passes policy ((subscription.attributes["FilterPolicyScope"]?).getD "MessageAttributes")
        note.attributes (note.bodyFor subscription.protocol)

/-- The body and the attributes that are sent to the queue of a subscription. -/
def payload (baseUrl : String) (subscription : SubscriptionRow) (note : Notification) :
    String × MsgAttrs :=
  if subscription.rawDelivery then (note.bodyFor "sqs", note.attributes)
  else (External.jsonToString (envelope baseUrl subscription note), ∅)

/-- Subscription dead-letter queue. -/
def SubscriptionRow.dlq (subscription : SubscriptionRow) : Option String := do
  let policy ← subscription.attributes["RedrivePolicy"]?
  let value ← External.jsonFromStr policy
  (← value.get "deadLetterTargetArn").asStr

/-! ### Calls -/

/-- The input of the send; a FIFO queue gets a group and a deduplication id. -/
def sendInput (queue : SqsQueue) (message : String × MsgAttrs) (groupId dedupId : Option String)
    (uuid : String) : SendInput where
  body := message.1
  attributes := message.2
  groupId := if queue.isFifo then some (groupId.getD "cloudtwin") else groupId
  dedupId := if queue.isFifo then some (dedupId.getD uuid) else none

/-- **One send**; `queue` may be a queue ARN, URL, or name. -/
def sendWith (store : Store) (queue : String) (message : String × MsgAttrs)
    (groupId dedupId : Option String) (call : PublishCall) : Result (Sent × Store) := do
  let found ← getQueue store queue
  sendTx store found (sendInput found message groupId dedupId call.dedupUuid) call.now

/-- The text of the `n`-th sequence number; the sum is one of 64-bit integers. -/
def sequenceText (seq : Nat) : String :=
  decimal 20 (10000000000000000000 + seq)

/-- The text of a sequence number, if the sum fits. -/
def numberText (seq : Nat) : SnsResult String :=
  if 10000000000000000000 + seq < 2 ^ 64 then .ok (sequenceText seq)
  else .error (.internal "attempt to add with overflow")

def raiseTopic (store : SnsStore) (arn : String) : SnsStore :=
  { store with topics := store.topics.map fun topic =>
      if topic.arn = arn then { topic with fifoSeq := topic.fifoSeq + 1 } else topic }

/-- Increment and return the topic's FIFO sequence number. -/
def nextSequence (store : SnsStore) (arn : String) : SnsResult (String × SnsStore) := do
  let after := raiseTopic store arn
  let topic ← okOr (findTopic after arn) (SnsError.internal "Query returned no rows")
  let number ← numberText topic.fifoSeq
  return (number, after)

/-! ### Requests -/

/-- The call that a publish makes next. -/
inductive PublishTask where
  | begin (request : TopicRequest)
  | nextSequence (note : Notification)
  | listSubscriptions (note : Notification)
  | deliver (note : Notification) (subscription : SubscriptionRow) (rest : List SubscriptionRow)
  | redrive (note : Notification) (subscription : SubscriptionRow) (dlq : String)
      (rest : List SubscriptionRow)

abbrev PublishProgress := Progress PublishTask (SnsResult PublishResult)

def noTarget : SnsError :=
  .invalid ("Invalid parameter: TopicArn or TargetArn Reason: no value for required parameter")

/-- What a publish reads of its topic. -/
def TopicRow.published (topic : TopicRow) : SnsTopic where
  isFifo := topic.isFifo
  contentBasedDeduplication := (topic.attributes["ContentBasedDeduplication"]?).any (· == "true")

/-- The message, once its topic has been read. -/
def prepare (topic : TopicRow) (request : TopicRequest) (bodies : BTreeMap String)
    (call : PublishCall) : SnsResult Notification := do
  let (groupId, dedupId) ← messageGroup topic.published request.toPublishRequest
  return { bodies, attributes := request.attributes, groupId, dedupId, messageId := call.messageId
           topicArn := topic.arn, subject := request.subject, timestamp := call.timestamp
           sequenceNumber := none }

/-- The result of a publish that is only stored. -/
def stored (call : PublishCall) : PublishResult where
  messageId := call.messageId
  sequenceNumber := none

/-- The first call of a publish. -/
def beginPublish (store : SnsStore) (request : TopicRequest) (call : PublishCall) :
    SnsResult (PublishProgress) := do
  checkPublish request.toPublishRequest
  let bodies ← messageBodies request.toPublishRequest
  match request.topicArn.filter fun target => !target.isEmpty with
  | none =>
    if (request.phoneNumber.filter fun phone => !phone.isEmpty).isSome then
      return .ends (.ok (stored call))
    else .error noTarget
  | some target =>
    if (findSub ":endpoint/".toList target.toList).isSome then return .ends (.ok (stored call))
    else
      let topic ← okOr (findTopic store target) (SnsError.notFound "Topic does not exist")
      let note ← prepare topic request bodies call
      return .continues (if topic.isFifo then .nextSequence note else .listSubscriptions note)

/-- An error ends the publish. -/
def begun : SnsResult PublishProgress → PublishProgress
  | .ok progress => progress
  | .error error => .ends (.error error)

def Notification.result (note : Notification) : PublishResult where
  messageId := note.messageId
  sequenceNumber := note.sequenceNumber

/-- The next subscription that is sent the message, or the end of the publish. -/
def nextDelivery (note : Notification) : List SubscriptionRow → PublishProgress
  | [] => .ends (.ok note.result)
  | subscription :: rest =>
    if passesFilter subscription note && subscription.protocol == "sqs" then
      .continues (.deliver note subscription rest)
    else nextDelivery note rest

/-- A send that was tried: its store, or nothing if it failed. -/
def sent (services : Services) (result : Result (Sent × Store)) : Option Services :=
  match result with
  | .ok (_, queues) => some { services with queues }
  | .error _ => none

/-- The send of a delivery. -/
def deliverySend (services : Services) (note : Notification) (subscription : SubscriptionRow)
    (queue : String) (call : PublishCall) : Result (Sent × Store) :=
  sendWith services.queues queue (payload services.baseUrl subscription note) note.groupId note.dedupId
    call

def afterSequence (services : Services) (note : Notification) :
    SnsResult (String × SnsStore) → PublishProgress × Services
  | .ok (number, topics) =>
    (.continues (.listSubscriptions { note with sequenceNumber := some number }),
      { services with topics })
  | .error error => (.ends (.error error), services)

/-- A delivery that failed is tried again on the dead-letter queue. -/
def afterDelivery (services : Services) (note : Notification) (subscription : SubscriptionRow)
    (rest : List SubscriptionRow) : Option Services → PublishProgress × Services
  | some after => (nextDelivery note rest, after)
  | none =>
    (subscription.dlq.elim (nextDelivery note rest) fun dlq =>
      .continues (.redrive note subscription dlq rest), services)

/-- **One call**, and where it leads. -/
def PublishTask.run (call : PublishCall) (task : PublishTask) (services : Services) :
    PublishProgress × Services :=
  match task with
  | .begin request => (begun (beginPublish services.topics request call), services)
  | .nextSequence note =>
    afterSequence services note (Sns.nextSequence services.topics note.topicArn)
  | .listSubscriptions note =>
    (nextDelivery note (Sns.listSubscriptions services.topics note.topicArn), services)
  | .deliver note subscription rest =>
    afterDelivery services note subscription rest
      (sent services (deliverySend services note subscription subscription.endpoint call))
  | .redrive note subscription dlq rest =>
    (nextDelivery note rest,
      (sent services (deliverySend services note subscription dlq call)).getD services)

abbrev PublishSystem := System Services (Option PublishTask)

abbrev PublishEvent :=
  Event PublishSystem (Nat × Turn PublishCall TopicRequest) (Option (SnsResult PublishResult))

/-- **The step of a client.** -/
def publishStep (system : PublishSystem) (turn : Nat × Turn PublishCall TopicRequest) :
    Option (SnsResult PublishResult) × PublishSystem :=
  System.step (advance PublishTask.begin PublishTask.run) system turn

/-- No publish is under way. -/
def PublishSystem.idle (services : Services) : PublishSystem where
  shared := services
  client _ := none

end External

end CloudTwin.Sns
