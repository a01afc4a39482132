/-
**The Service Bus service** (`azure/servicebus/service.rs`, `handlers.rs`).

Queues, topics, subscriptions and messages. A subscription is stored as a virtual queue, and all
messages stand in one table, each under the name of its queue. Each function of the service is one
call on the database.

The messages come in the order of their row ids, so a list stands for the table. A random id is the
next value of its stream, and `drawn` counts the values drawn. The namespace (the same in all rows)
and the times of creation are left out.

* `receiveMessages`, `settle` — what happens to a message.
* `perform` — the state machine of all calls.
-/

import CloudTwin.External
import CloudTwin.Lib.Machine
import CloudTwin.Lib.Sqlite

namespace CloudTwin.Servicebus

open Lib Lib.Text

set_option linter.unusedSectionVars false

/-! ### Data -/

/-- The `visible` column. -/
inductive MessageState where
  | active
  | locked
  | deadletter
  deriving DecidableEq

/-- A row of `asb_messages`. -/
structure AsbMessage where
  messageId : String
  queueName : String
  body : String
  lockToken : String
  visible : MessageState
  deriving DecidableEq

structure AsbSubscription where
  name : String
  topic : String
  deriving DecidableEq

structure Store where
  queues : List String
  topics : List String
  subscriptions : List AsbSubscription
  messages : List AsbMessage
  drawn : Nat

def Store.empty : Store where
  queues := []
  topics := []
  subscriptions := []
  messages := []
  drawn := 0

/-- Maximum number of messages returned by a single receive. -/
def maxReceive : Int := 1000

/-- Virtual queue name holding a subscription's messages. -/
def subscriptionQueue (topic subscription : String) : String :=
  "topic:" ++ topic ++ ":sub:" ++ subscription

/-- A place that messages are received from. -/
inductive Entity where
  | queue (name : String)
  | subscription (topic name : String)
  deriving DecidableEq

/-- The queue name that a handler passes to the service. -/
def Entity.queueName : Entity → String
  | .queue name => name
  | .subscription topic name => subscriptionQueue topic name

/-! ### Queues, topics and subscriptions -/

def createQueue (store : Store) (name : String) : Store :=
  if store.queues.contains name then store else { store with queues := store.queues ++ [name] }

/-- Delete a queue and its messages; `false` when it did not exist. -/
def deleteQueue (store : Store) (name : String) : Bool × Store :=
  (store.queues.contains name,
    { store with
      queues := store.queues.filter fun queue => queue != name
      messages := store.messages.filter fun message => message.queueName != name })

def createTopic (store : Store) (name : String) : Store :=
  if store.topics.contains name then store else { store with topics := store.topics ++ [name] }

/-- Delete a topic with its subscriptions and their messages; `false` when the topic did not
exist. -/
def deleteTopic (store : Store) (name : String) : Bool × Store :=
  (store.topics.contains name,
    { store with
      topics := store.topics.filter fun topic => topic != name
      subscriptions := store.subscriptions.filter fun row => row.topic != name
      messages := store.messages.filter fun message =>
        !Sqlite.hasPrefix message.queueName (subscriptionQueue name "") })

/-- Create a subscription; `none` when the topic does not exist. -/
def createSubscription (store : Store) (topic name : String) : Option AsbSubscription × Store :=
  let row : AsbSubscription := { name := name, topic := topic }
  if store.topics.contains topic = false then (none, store)
  else if store.subscriptions.contains row then (some row, store)
  else (some row, { store with subscriptions := store.subscriptions ++ [row] })

/-- Delete a subscription and its messages; `false` when it did not exist. -/
def deleteSubscription (store : Store) (topic name : String) : Bool × Store :=
  let row : AsbSubscription := { name := name, topic := topic }
  (store.subscriptions.contains row,
    { store with
      subscriptions := store.subscriptions.filter fun other => other != row
      messages := store.messages.filter fun message =>
        message.queueName != subscriptionQueue topic name })

/-! ### Messages -/

section External

variable [External]

/-- The row of a message: its lock token is the next value drawn. -/
def newMessage (drawn : Nat) (messageId queue body : String) : AsbMessage where
  messageId := messageId
  queueName := queue
  body := body
  lockToken := External.uuid drawn
  visible := .active

/-- Send to a queue; `none` when the queue does not exist. -/
def sendMessage (store : Store) (queueName body : String) : Option AsbMessage × Store :=
  if store.queues.contains queueName = false then (none, store)
  else
    let message := newMessage (store.drawn + 1) (External.uuid store.drawn) queueName body
    (some message,
      { store with messages := store.messages ++ [message], drawn := store.drawn + 2 })

/-- `SELECT name FROM asb_subscriptions WHERE topic=?2 ORDER BY name`. -/
def subscriptionsOf (store : Store) (topic : String) : List String :=
  ((store.subscriptions.filter fun row => row.topic == topic).map AsbSubscription.name).mergeSort
    fun first second => decide (first ≤ second)

/-- The copies of a message for the subscriptions of its topic. -/
def copies (store : Store) (topic body : String) : List AsbMessage :=
  (subscriptionsOf store topic).mapIdx fun index name =>
    newMessage (store.drawn + 1 + index) (External.uuid store.drawn) (subscriptionQueue topic name)
      body

/-- Publish to a topic, copying the message to every subscription. Returns the copies, or `none`
when the topic does not exist. -/
def sendTopicMessage (store : Store) (topic body : String) : Option (List AsbMessage) × Store :=
  if store.topics.contains topic = false then (none, store)
  else
    (some (copies store topic body),
      { store with
        messages := store.messages ++ copies store topic body
        drawn := store.drawn + 1 + (copies store topic body).length })

/-- `max.clamp(1, MAX_RECEIVE)`. -/
def receiveLimit (limit : Int) : Nat :=
  (max 1 (min limit maxReceive)).toNat

/-- `WHERE queue_name=?2 AND visible=?3 ORDER BY id LIMIT ?4`. -/
def receivable (store : Store) (queueName : String) (limit : Int) : List AsbMessage :=
  (store.messages.filter fun message =>
    message.queueName == queueName && message.visible == .active).take (receiveLimit limit)

/-- `UPDATE asb_messages SET visible=?1 WHERE lock_token=?2`, for each of the tokens. -/
def lockAll (messages : List AsbMessage) (tokens : List String) : List AsbMessage :=
  messages.map fun message =>
    if message.lockToken ∈ tokens then { message with visible := .locked } else message

/-- Peek-lock up to `max` active messages from a (virtual) queue. -/
def receiveMessages (store : Store) (queueName : String) (limit : Int) :
    List AsbMessage × Store :=
  let messages := receivable store queueName limit
  (messages.map fun message => { message with visible := .locked },
    { store with
      messages := lockAll store.messages (messages.map AsbMessage.lockToken) })

/-- Move a locked message to `state`, or delete it (`none`, any state). Returns `false` when no
matching message exists in `queueName`. -/
def settle (store : Store) (queueName lockToken : String) (state : Option MessageState) :
    Bool × Store :=
  match state with
  | some state =>
    let here (message : AsbMessage) : Bool :=
      message.queueName == queueName && message.lockToken == lockToken &&
        message.visible == .locked
    (store.messages.any here,
      { store with
        messages := store.messages.map fun message =>
          if here message then { message with visible := state } else message })
  | none =>
    let here (message : AsbMessage) : Bool :=
      message.queueName == queueName && message.lockToken == lockToken
    (store.messages.any here,
      { store with messages := store.messages.filter fun message => !here message })

/-- How a message is settled. -/
inductive Settlement where
  | complete
  | abandon
  | deadletter
  deriving DecidableEq

def Settlement.state : Settlement → Option MessageState
  | .complete => none
  | .abandon => some .active
  | .deadletter => some .deadletter

/-! ### All calls -/

/-- **A call** with its arguments. The handler of a receive looks up the queue in a call of its own,
so that a receive can find it deleted. -/
inductive Call where
  | createQueue (name : String)
  | deleteQueue (name : String)
  | createTopic (name : String)
  | deleteTopic (name : String)
  | createSubscription (topic name : String)
  | deleteSubscription (topic name : String)
  | sendMessage (queue body : String)
  | sendTopicMessage (topic body : String)
  | receiveMessages (entity : Entity) (limit : Int)
  | settle (entity : Entity) (lockToken : String) (settlement : Settlement)

inductive Response where
  | created
  | deleted (existed : Bool)
  | subscription (row : Option AsbSubscription)
  | sent (message : Option AsbMessage)
  | published (copies : Option (List AsbMessage))
  | received (messages : List AsbMessage)
  | settled (found : Bool)
  deriving DecidableEq

/-- **What a call does.** -/
def perform (store : Store) (call : Call) : Response × Store :=
  match call with
  | .createQueue name => (.created, createQueue store name)
  | .deleteQueue name => ((deleteQueue store name).map .deleted id)
  | .createTopic name => (.created, createTopic store name)
  | .deleteTopic name => ((deleteTopic store name).map .deleted id)
  | .createSubscription topic name =>
    ((createSubscription store topic name).map .subscription id)
  | .deleteSubscription topic name => ((deleteSubscription store topic name).map .deleted id)
  | .sendMessage queue body => ((sendMessage store queue body).map .sent id)
  | .sendTopicMessage topic body => ((sendTopicMessage store topic body).map .published id)
  | .receiveMessages entity limit =>
    ((receiveMessages store entity.queueName limit).map .received id)
  | .settle entity lockToken settlement =>
    ((settle store entity.queueName lockToken settlement.state).map .settled id)

abbrev ServicebusEvent := Event Store Call Response

/-- **A run of the Service Bus** on a database that was empty at first: any calls, in any order. -/
abbrev ServicebusRun (history : List ServicebusEvent) (store : Store) : Prop :=
  Run perform Store.empty history store

end External

end CloudTwin.Servicebus
