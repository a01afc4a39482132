/-
**The Pub/Sub service** (`gcp/pubsub/service.rs`, `models.rs`, `schema.rs`).

Topics, subscriptions, published messages, and a row of `pubsub_ackables` for each message and each
subscription that it was fanned out to. Each function of the service is one call on the database. A
random id is the next value of its stream, and `drawn` counts the values drawn.

* `publish` — stores the messages, and an ackable for each of the topic's subscriptions.
* `pull`, `acknowledge`, `modifyAckDeadline` — what happens to an ackable.
* `perform` — the state machine of these calls.
-/

import CloudTwin.External
import CloudTwin.Lib.Transaction
import Mathlib.Data.List.Sort

namespace CloudTwin.Pubsub

open Lib Lib.Text

set_option linter.unusedSectionVars false

/-! ### Data -/

inductive PubsubError where
  | notFound (message : String)
  | alreadyExists (message : String)
  | invalidArgument (message : String)
  deriving DecidableEq

abbrev PubsubResult := Except PubsubError

structure Subscription where
  name : String
  topic : String
  ackDeadlineSeconds : Int
  deriving DecidableEq

/-- A message to publish: base64 `data` plus a JSON object of attributes. -/
structure OutgoingMessage where
  data : String
  attributes : Json

/-- A row of `pubsub_messages`. -/
structure Message where
  id : Nat
  messageId : String
  topic : String
  data : String
  attributes : String
  createdAt : Int
  deriving DecidableEq

/-- A row of `pubsub_ackables`. -/
structure Ackable where
  ackId : String
  subscription : String
  messageId : String
  acked : Bool
  leaseUntil : Option Int
  deriving DecidableEq

structure Store where
  topics : List String
  subscriptions : List Subscription
  messages : List Message
  ackables : List Ackable
  /-- The next `AUTOINCREMENT` value of `pubsub_messages`. -/
  nextId : Nat
  drawn : Nat

def Store.empty : Store where
  topics := []
  subscriptions := []
  messages := []
  ackables := []
  nextId := 1
  drawn := 0

def defaultAckDeadline : Int := 10

def maxAckDeadline : Int := 600

/-! ### Topics and subscriptions -/

def fullTopic (project name : String) : String :=
  if startsWith name "projects/" then name else "projects/" ++ project ++ "/topics/" ++ name

def fullSub (project name : String) : String :=
  if startsWith name "projects/" then name else "projects/" ++ project ++ "/subscriptions/" ++ name

def topicNotFound (topic : String) : PubsubError :=
  .notFound ("Topic not found: " ++ topic)

def subscriptionNotFound (subscription : String) : PubsubError :=
  .notFound ("Subscription does not exist: " ++ subscription)

def findSubscription (store : Store) (name : String) : Option Subscription :=
  store.subscriptions.find? fun row => row.name == name

def createTopic (store : Store) (project name : String) : PubsubResult Store := do
  let topic := fullTopic project name
  rejectIf (store.topics.contains topic) (.alreadyExists ("Topic already exists: " ++ topic))
  return { store with topics := store.topics ++ [topic] }

def deleteTopic (store : Store) (project name : String) : PubsubResult Store := do
  let topic := fullTopic project name
  rejectIf (store.topics.contains topic = false) (topicNotFound topic)
  return { store with topics := store.topics.filter fun row => row != topic }

/-- The deadline of a new subscription: the one asked for, within its bounds. -/
def ackDeadlineOf (asked : Option Int) : Int :=
  max defaultAckDeadline (min maxAckDeadline ((asked.filter (0 < ·)).getD defaultAckDeadline))

def createSubscription (store : Store) (project name topicName : String) (asked : Option Int) :
    PubsubResult (Subscription × Store) := do
  rejectIf (topicName.isEmpty) (.invalidArgument "Subscription topic is required")
  let row : Subscription :=
    { name := fullSub project name, topic := fullTopic project topicName
      ackDeadlineSeconds := ackDeadlineOf asked }
  rejectIf (store.topics.contains row.topic = false) (topicNotFound row.topic)
  rejectIf ((findSubscription store row.name).isSome)
    (.alreadyExists ("Subscription already exists: " ++ row.name))
  return (row, { store with subscriptions := store.subscriptions ++ [row] })

def deleteSubscription (store : Store) (project name : String) : PubsubResult Store := do
  let subscription := fullSub project name
  rejectIf ((findSubscription store subscription).isNone) (subscriptionNotFound subscription)
  return { store with
    subscriptions := store.subscriptions.filter fun row => row.name != subscription
    ackables := store.ackables.filter fun row => row.subscription != subscription }

section External

variable [External]

/-! ### Publish -/

/-- The message has neither data nor attributes. -/
def OutgoingMessage.isBlank (message : OutgoingMessage) : Bool :=
  message.data.isEmpty && match message.attributes with
    | .obj members => members.isEmpty
    | _ => true

/-- The rows of the messages: their ids are drawn before the transaction. -/
def messageRows (store : Store) (topic : String) (messages : List OutgoingMessage) (now : Int) :
    List Message :=
  messages.mapIdx fun index message =>
    { id := store.nextId + index, messageId := External.uuid (store.drawn + index), topic
      data := message.data, attributes := External.jsonToString message.attributes
      createdAt := now }

/-- The rows of the loops: for each message, one for each subscription. -/
def ackableRows (store : Store) (rows : List Message) (subscriptions : List String) :
    List Ackable :=
  (rows.flatMap fun row => subscriptions.map fun subscription =>
      (row.messageId, subscription)).mapIdx fun index pair =>
    { ackId := External.uuid (store.drawn + rows.length + index), subscription := pair.2
      messageId := pair.1, acked := false, leaseUntil := none }

/-- `SELECT name FROM pubsub_subscriptions WHERE topic=?1`. -/
def subscriptionsOf (store : Store) (topic : String) : List String :=
  (store.subscriptions.filter fun row => row.topic == topic).map Subscription.name

/-- Names of the subscriptions attached to a topic. -/
def topicSubscriptions (store : Store) (project name : String) : PubsubResult (List String) := do
  let topic := fullTopic project name
  rejectIf (store.topics.contains topic = false) (topicNotFound topic)
  return (subscriptionsOf store topic).mergeSort fun first second => decide (first ≤ second)

/-- Publish messages to a topic and fan them out to its subscriptions. Returns the message IDs in
request order. -/
def publish (store : Store) (project topicName : String) (messages : List OutgoingMessage)
    (now : Int) : PubsubResult (List String × Store) := do
  rejectIf (messages.isEmpty) (.invalidArgument "The request contains no messages")
  rejectIf (messages.any OutgoingMessage.isBlank)
    (.invalidArgument "Some messages contain neither data nor attributes")
  let topic := fullTopic project topicName
  rejectIf (store.topics.contains topic = false) (topicNotFound topic)
  let rows := messageRows store topic messages now
  let ackables := ackableRows store rows (subscriptionsOf store topic)
  return (rows.map Message.messageId, { store with
    messages := store.messages ++ rows
    ackables := store.ackables ++ ackables
    nextId := store.nextId + rows.length
    drawn := store.drawn + rows.length + ackables.length })

/-! ### Pull -/

/-- `UPDATE pubsub_ackables SET .. WHERE ack_id=?1 AND ..`, once for each of the ids. -/
def updateEach (rows : List Ackable) (ackIds : List String) (condition : Ackable → Bool)
    (change : Ackable → Ackable) : List Ackable :=
  ackIds.foldl (fun rows ackId => rows.map fun row =>
    if row.ackId = ackId ∧ condition row = true then change row else row) rows

/-- `WHERE a.subscription=?1 AND a.acked=0 AND (a.lease_until IS NULL OR a.lease_until <= ?2)`. -/
def Ackable.isDue (row : Ackable) (subscription : String) (now : Int) : Bool :=
  row.subscription == subscription && !row.acked && row.leaseUntil.all (· ≤ now)

/-- `JOIN pubsub_messages m ON m.message_id = a.message_id`. -/
def withMessages (store : Store) (rows : List Ackable) : List (Ackable × Message) :=
  rows.flatMap fun row =>
    (store.messages.filter fun message => message.messageId == row.messageId).map fun message =>
      (row, message)

/-- `ORDER BY m.id`. -/
def publishedBefore (first second : Ackable × Message) : Prop :=
  first.2.id ≤ second.2.id

instance : DecidableRel publishedBefore :=
  fun _ _ => inferInstanceAs (Decidable (_ ≤ _))

def pullLimit (maxMessages : Int) : Nat :=
  if maxMessages ≤ 0 then 10 else (min maxMessages 1000).toNat

/-- Lease up to `maxMessages` deliverable messages for the subscription's ack deadline. -/
def pull (store : Store) (project name : String) (maxMessages now : Int) :
    PubsubResult (List (Ackable × Message) × Store) := do
  let subscription := fullSub project name
  let row ← okOr (findSubscription store subscription) (subscriptionNotFound subscription)
  let due := store.ackables.filter fun row => row.isDue subscription now
  let rows := ((withMessages store due).insertionSort publishedBefore).take (pullLimit maxMessages)
  return (rows, { store with
    ackables := updateEach store.ackables (rows.map fun row => row.1.ackId) (fun _ => true)
      fun ackable => { ackable with leaseUntil := some (now + row.ackDeadlineSeconds * 1000) } })

/-! ### Acknowledge and lease management -/

def acknowledge (store : Store) (project name : String) (ackIds : List String) :
    PubsubResult Store := do
  let subscription := fullSub project name
  rejectIf ((findSubscription store subscription).isNone) (subscriptionNotFound subscription)
  return { store with
    ackables := updateEach store.ackables ackIds (fun row => row.subscription == subscription)
      fun row => { row with acked := true } }

def invalidDeadline (seconds : Int) : PubsubError :=
  .invalidArgument ("Invalid ack deadline: " ++ toString seconds ++ "; must be between 0 and " ++
    toString maxAckDeadline ++ " seconds")

/-- Extend (or with `0`, release) the lease of pulled messages. -/
def modifyAckDeadline (store : Store) (project name : String) (ackIds : List String)
    (seconds now : Int) : PubsubResult Store := do
  rejectIf (¬ (0 ≤ seconds ∧ seconds ≤ maxAckDeadline)) (invalidDeadline seconds)
  let subscription := fullSub project name
  rejectIf ((findSubscription store subscription).isNone) (subscriptionNotFound subscription)
  return { store with
    ackables := updateEach store.ackables ackIds
      (fun row => row.subscription == subscription && !row.acked)
      fun row => { row with leaseUntil := some (now + seconds * 1000) } }

/-! ### All calls -/

/-- **A call** with its arguments. -/
inductive Call where
  | createTopic (name : String)
  | deleteTopic (name : String)
  | createSubscription (name topicName : String) (asked : Option Int)
  | deleteSubscription (name : String)
  | publish (topicName : String) (messages : List OutgoingMessage)
  | pull (name : String) (maxMessages : Int)
  | acknowledge (name : String) (ackIds : List String)
  | modifyAckDeadline (name : String) (ackIds : List String) (seconds : Int)

inductive Response where
  | done
  | subscription (row : Subscription)
  | published (messageIds : List String)
  | received (rows : List (Ackable × Message))

/-- A call and the reading of the clock when it runs. -/
structure Input where
  now : Int
  call : Call

def noAnswer (result : PubsubResult Store) : PubsubResult (Response × Store) :=
  result.map fun after => (.done, after)

def answerWith {α : Type} (answer : α → Response) (result : PubsubResult (α × Store)) :
    PubsubResult (Response × Store) :=
  result.map fun pair => (answer pair.1, pair.2)

/-- **What a call does.** -/
def execute (project : String) (store : Store) (input : Input) :
    PubsubResult (Response × Store) :=
  let now := input.now
  match input.call with
  | .createTopic name => noAnswer (createTopic store project name)
  | .deleteTopic name => noAnswer (deleteTopic store project name)
  | .createSubscription name topicName asked =>
    answerWith .subscription (createSubscription store project name topicName asked)
  | .deleteSubscription name => noAnswer (deleteSubscription store project name)
  | .publish topicName messages =>
    answerWith .published (publish store project topicName messages now)
  | .pull name maxMessages => answerWith .received (pull store project name maxMessages now)
  | .acknowledge name ackIds => noAnswer (acknowledge store project name ackIds)
  | .modifyAckDeadline name ackIds seconds =>
    noAnswer (modifyAckDeadline store project name ackIds seconds now)

/-- **A call**: what it writes is kept when it succeeds; when it fails, it writes nothing. -/
def perform (project : String) : Store → Input → PubsubResult Response × Store :=
  commit (execute project)

abbrev PubsubEvent := Event Store Input (PubsubResult Response)

/-- **A run of Pub/Sub** on a database that was empty at first: any calls, in any order, at times
that do not decrease. -/
structure PubsubRun (project : String) (history : List PubsubEvent) (store : Store) : Prop where
  run : Run (perform project) Store.empty history store
  clocked : Clocked Input.now history

end External

theorem noAnswer_ok {result : PubsubResult Store} {response : Response} {after : Store}
    (done : noAnswer result = .ok (response, after)) : result = .ok after ∧ response = .done := by
  cases result with
  | error error => cases done
  | ok store =>
    cases done
    exact ⟨rfl, rfl⟩

theorem answerWith_ok {α : Type} {answer : α → Response} {result : PubsubResult (α × Store)}
    {response : Response} {after : Store} (done : answerWith answer result = .ok (response, after)) :
    ∃ value, result = .ok (value, after) ∧ answer value = response := by
  cases result with
  | error error => cases done
  | ok pair =>
    cases done
    exact ⟨pair.1, rfl, rfl⟩

end CloudTwin.Pubsub
