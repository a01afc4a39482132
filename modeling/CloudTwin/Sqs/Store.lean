/-
**The SQS tables** (`aws/sqs/schema.rs`) and the queue rows (`aws/sqs/service.rs`).

`Store` is the part of the database that SQS owns: `sqs_queues`, `sqs_messages` and
`sqs_fifo_dedup`, with the count of `Uuid::new_v4()` values drawn so far. Every database call of the
service runs alone on the connection thread, and a call that fails rolls its transaction back: a
call is a function from a store to a result and a store, and a failed call has no store of its own.

Columns that hold the JSON of a map are kept as the map; `created_at` columns are read by no
operation and left out.
-/

import CloudTwin.Sqs.Models
import CloudTwin.Lib.Table

namespace CloudTwin.Sqs

open Lib Lib.Text

/-- A row of `sqs_queues`. -/
structure QueueRow where
  name : String
  url : String
  attributes : BTreeMap String
  tags : BTreeMap String
  createdTs : Int
  modifiedTs : Int
  fifoSeq : Nat

/-- A row of `sqs_messages`; all timestamps are epoch milliseconds. -/
structure MessageRow where
  messageId : String
  queueId : Nat
  body : String
  receiptHandle : String
  visible : Bool
  visibleAt : Int
  sentAt : Int
  receiveCount : Nat
  firstReceiveAt : Option Int
  messageAttributes : Option Json
  systemAttributes : Option Json
  groupId : Option String
  dedupId : Option String
  sequenceNumber : Option String
  dlqSourceArn : Option String

/-- A row of `sqs_fifo_dedup`, with the primary key `(queue_id, dedup_id)`. -/
structure DedupRow where
  queueId : Nat
  dedupId : String
  messageId : String
  sequenceNumber : String
  expiresAt : Int
  deriving DecidableEq

structure Store where
  queues : Table QueueRow
  messages : Table MessageRow
  dedup : List DedupRow
  drawn : Nat

/-- A database without SQS rows. -/
def Store.empty : Store where
  queues := Table.empty
  messages := Table.empty
  dedup := []
  drawn := 0

/-! ### Queue names and rows -/

/-- Queue name from a queue URL, ARN, or bare name. -/
def queueNameOf (id : String) : String :=
  let id := trimEndMatches '/' (trim id)
  if startsWith id "arn:" then afterLast ':' id
  else afterLast '/' (beforeFirst '?' id)

def queueFromRow (id : Nat) (row : QueueRow) : SqsQueue where
  id := id
  name := row.name
  attributes := row.attributes
  tags := row.tags
  createdTs := row.createdTs
  modifiedTs := if row.modifiedTs = 0 then row.createdTs else row.modifiedTs

def findQueue (store : Store) (name : String) : Option SqsQueue :=
  (store.queues.rows.find? fun row => row.2.name == name).map fun row => queueFromRow row.1 row.2

def requireQueue (store : Store) (name : String) : Result SqsQueue :=
  match findQueue store name with
  | some queue => .ok queue
  | none => .error .queueDoesNotExist

/-- `SqsService::get_queue`: the first database call of every request on a queue. -/
def getQueue (store : Store) (id : String) : Result SqsQueue :=
  let name := queueNameOf id
  if name.isEmpty then .error .queueDoesNotExist
  else requireQueue store name

/-- A queue that was found is the row with its id. -/
theorem findQueue_row {store : Store} {name : String} {queue : SqsQueue}
    (found : findQueue store name = some queue) :
    ∃ row, store.queues.get queue.id = some row ∧ row.name = name ∧
      queue = queueFromRow queue.id row := by
  obtain ⟨⟨id, row⟩, first, rfl⟩ := Option.map_eq_some_iff.mp found
  have member := List.mem_of_find?_eq_some first
  have named := List.find?_some first
  exact ⟨row, (Table.get_eq_some _ _ _).mpr member, by simpa using named, rfl⟩

theorem requireQueue_found {store : Store} {name : String} {queue : SqsQueue}
    (found : requireQueue store name = .ok queue) : findQueue store name = some queue := by
  unfold requireQueue at found
  split at found
  · cases found
    assumption
  · cases found

theorem getQueue_found {store : Store} {id : String} {queue : SqsQueue}
    (found : getQueue store id = .ok queue) : findQueue store (queueNameOf id) = some queue := by
  unfold getQueue at found
  simp only at found
  split at found
  · cases found
  · exact requireQueue_found found

theorem getQueue_row {store : Store} {id : String} {queue : SqsQueue}
    (found : getQueue store id = .ok queue) :
    ∃ row, store.queues.get queue.id = some row ∧ row.name = queueNameOf id ∧
      queue = queueFromRow queue.id row :=
  findQueue_row (getQueue_found found)

@[simp] theorem queueFromRow_id (id : Nat) (row : QueueRow) : (queueFromRow id row).id = id := rfl

@[simp] theorem queueFromRow_name (id : Nat) (row : QueueRow) :
    (queueFromRow id row).name = row.name := rfl

@[simp] theorem queueFromRow_attributes (id : Nat) (row : QueueRow) :
    (queueFromRow id row).attributes = row.attributes := rfl

@[simp] theorem queueFromRow_tags (id : Nat) (row : QueueRow) :
    (queueFromRow id row).tags = row.tags := rfl

end CloudTwin.Sqs
