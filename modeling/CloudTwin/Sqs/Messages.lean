/-
**Message operations** (`aws/sqs/service.rs`): `refresh`, `send_tx`, `receive_tx`,
`delete_message_tx`, `change_visibility_tx` and `get_attributes_tx`.

Two results carry what the HTTP answer leaves out and the theorems speak about: `Sent.row` is the
`sqs_messages.id` of a message that was accepted as new (a duplicate has none), and `Received` lists
the row id of every message returned and of every message moved to the dead-letter queue.
-/

import CloudTwin.Sqs.Queues

namespace CloudTwin.Sqs

open Lib Lib.Text

set_option linter.unusedSectionVars false

/-- FIFO deduplication window, in milliseconds. -/
def dedupWindowMs : Int := 5 * 60 * 1000

def maxAttributes : Nat := 10

/-- Whether the retention period of the queue has passed for a message. -/
def expired (queue : SqsQueue) (now : Int) (row : MessageRow) : Bool :=
  row.queueId == queue.id && decide (0 < row.sentAt) &&
    decide (row.sentAt + queue.attrI64 "MessageRetentionPeriod" * 1000 < now)

/-- Purge messages older than the retention period and sync the `visible` flag
(`visible = 1` iff the message is receivable now) for the dashboard. -/
def refresh (store : Store) (queue : SqsQueue) (now : Int) : Store :=
  { store with
    messages := (store.messages.delete fun _ row => expired queue now row).update
      (fun _ row => row.queueId == queue.id && row.visible != decide (row.visibleAt ≤ now))
      fun row => { row with visible := decide (row.visibleAt ≤ now) }
    dedup := store.dedup.filter fun row => !decide (row.expiresAt < now) }

/-! ### Receipt handles -/

section External

variable [External]

/-- The handle of a message that no receive has returned from its queue yet. -/
@[irreducible]
def pendingHandle (draw : Nat) : String :=
  "pending-" ++ External.uuid draw

/-- What a receipt handle encodes. -/
def receiptText (queue messageId : String) (draw : Nat) : String :=
  queue ++ "|" ++ messageId ++ "|" ++ External.uuid draw ++ "|" ++
    simpleUuid (External.uuid (draw + 1))

@[irreducible]
def newReceiptHandle (queue messageId : String) (draw : Nat) : String :=
  Base64.urlSafeNoPadEncode (utf8 (receiptText queue messageId draw))

/-- Decode a receipt handle we issued into its message id. -/
def parseReceiptHandle (handle : String) : Option String := do
  let raw ← Base64.urlSafeNoPadDecode handle
  let text ← fromUtf8 raw
  match split '|' text with
  | [_, messageId, _, _] => some messageId
  | _ => none

/-- `receipt_handle` is UNIQUE: whether another row than `id` has the handle. -/
def handleTaken (messages : Table MessageRow) (id : Nat) (handle : String) : Bool :=
  messages.rows.any fun row => row.1 != id && row.2.receiptHandle == handle

def uniqueViolation : SqsError :=
  .internal "UNIQUE constraint failed: sqs_messages.receipt_handle"

/-! ### SendMessage -/

/-- Characters SQS accepts in a message body. -/
def validBodyChar (char : Char) : Bool :=
  let code := char.toNat
  code == 0x9 || code == 0xA || code == 0xD || (0x20 ≤ code && code ≤ 0xD7FF) ||
    (0xE000 ≤ code && code ≤ 0xFFFD) || (0x10000 ≤ code && code ≤ 0x10FFFF)

def attrsSize (attrs : MsgAttrs) : Nat :=
  (attrs.toList.map fun (name, attr) =>
    name.utf8ByteSize + attr.dataType.utf8ByteSize + attr.valueBytes.length).sum

/-- Payload size of one send (body plus message attributes) as SQS counts it. -/
def messageSize (input : SendInput) : Nat :=
  input.body.utf8ByteSize + attrsSize input.attributes

/-- The checks of the message before the transaction of `send_tx`. -/
def checkMessage (queue : SqsQueue) (input : SendInput) : Result Unit := do
  rejectIf (input.body.isEmpty) (.missingParameter "MessageBody")
  if let some bad := input.body.toList.find? fun char => !validBodyChar char then
    throw (.invalidMessageContents ("Invalid binary character '#x" ++ upperHex bad.toNat ++
      "' was found in the message body, the set of allowed characters is #x9 | #xA | #xD | " ++
      "#x20 to #xD7FF | #xE000 to #xFFFD | #x10000 to #x10FFFF"))
  rejectIf (input.attributes.size > maxAttributes) (.invalidParameter
    ("Number of message attributes [" ++ toString input.attributes.size ++
      "] exceeds the allowed maximum [" ++ toString maxAttributes ++ "]."))
  let limit := queue.attrI64 "MaximumMessageSize"
  rejectIf ((messageSize input : Int) > limit) (.invalidParameter
    ("One or more parameters are invalid. Reason: Message must be shorter than " ++
      toString limit ++ " bytes."))
  if let some (name, _) := input.systemAttributes.toList.find? fun entry =>
      entry.1 != "AWSTraceHeader" then
    throw (.invalidParameter ("Message system attribute name '" ++ name ++ "' is invalid."))

/-- The delay of a message: its own, which a FIFO queue does not take, or that of the queue. -/
def sendDelay (queue : SqsQueue) (input : SendInput) : Result Int :=
  match input.delaySeconds with
  | some delay =>
    if queue.isFifo then
      .error (.invalidParameter ("Value for parameter DelaySeconds is invalid. Reason: The " ++
        "request include parameter that is not valid for this queue type."))
    else if 0 ≤ delay ∧ delay ≤ 900 then
      .ok delay
    else
      .error (.invalidParameter ("Value " ++ toString delay ++ " for parameter DelaySeconds is " ++
        "invalid. Reason: DelaySeconds must be >= 0 and <= 900."))
  | none => .ok (queue.attrI64 "DelaySeconds")

/-- The part of `send_tx` before its transaction. -/
def checkSend (queue : SqsQueue) (input : SendInput) : Result Int := do
  checkMessage queue input
  sendDelay queue input

/-- A FIFO send names its group and its deduplication id, or the body's digest stands for it. -/
def effectiveDedupId (queue : SqsQueue) (input : SendInput) : Result String :=
  if (input.groupId.getD "").isEmpty then .error (.missingParameter "MessageGroupId")
  else
    match input.dedupId.filter fun id => !id.isEmpty with
    | some id => .ok id
    | none =>
      if queue.attrBool "ContentBasedDeduplication" then
        .ok (External.sha256Hex (utf8 input.body))
      else .error (.invalidParameter ("The queue should either have ContentBasedDeduplication " ++
        "enabled or MessageDeduplicationId provided explicitly"))

/-- The unexpired record of a deduplication id. -/
def findDedup (store : Store) (queueId : Nat) (dedupId : String) (now : Int) : Option DedupRow :=
  store.dedup.find? fun row =>
    row.queueId == queueId && row.dedupId == dedupId && decide (now ≤ row.expiresAt)

/-- `INSERT OR REPLACE INTO sqs_fifo_dedup`. -/
def replaceDedup (dedup : List DedupRow) (row : DedupRow) : List DedupRow :=
  (dedup.filter fun old => !(old.queueId == row.queueId && old.dedupId == row.dedupId)) ++ [row]

/-- `format!("{:020}", 10_000_000_000_000_000_000u64 + seq as u64)`; past `u64` the addition
overflows and the call panics, as Rust's checked arithmetic has it. -/
def sequenceNumberOf (seq : Nat) : Result String :=
  if 10000000000000000000 + seq < 2 ^ 64 then .ok (decimal 20 (10000000000000000000 + seq))
  else .error (.internal "attempt to add with overflow")

def attrsColumn (attrs : MsgAttrs) : Option Json :=
  if attrs.isEmpty then none else some (attrsToJson attrs)

/-- The row of a new message. -/
def newMessage (queueId : Nat) (messageId handle : String) (input : SendInput)
    (now visibleAt : Int) (dedupId sequenceNumber : Option String) : MessageRow where
  messageId := messageId
  queueId := queueId
  body := input.body
  receiptHandle := handle
  visible := decide (visibleAt ≤ now)
  visibleAt := visibleAt
  sentAt := now
  receiveCount := 0
  firstReceiveAt := none
  messageAttributes := attrsColumn input.attributes
  systemAttributes := attrsColumn input.systemAttributes
  groupId := input.groupId
  dedupId := dedupId
  sequenceNumber := sequenceNumber
  dlqSourceArn := none

/-- The id of the new row and the store that holds it; the draw before the placeholder's is the
message id's. -/
def insertMessage (store : Store) (queueId : Nat) (messageId : String) (input : SendInput)
    (now visibleAt : Int) (dedupId sequenceNumber : Option String) : Result (Nat × Store) :=
  let id := store.messages.next
  let handle := pendingHandle store.drawn
  if handleTaken store.messages id handle then .error uniqueViolation
  else .ok (id, { store with
    messages := store.messages.insert
      (newMessage queueId messageId handle input now visibleAt dedupId sequenceNumber)
    drawn := store.drawn + 1 })

/-- The answer to a send, and the row of the message if it was accepted as new. -/
structure Sent where
  outcome : SendOutcome
  row : Option Nat

def sendOutcome (input : SendInput) (messageId : String) (sequenceNumber : Option String) :
    SendOutcome where
  messageId := messageId
  md5Body := External.md5Hex (utf8 input.body)
  md5Attrs := if input.attributes.isEmpty then none else some (md5OfAttrs input.attributes)
  md5SystemAttrs :=
    if input.systemAttributes.isEmpty then none else some (md5OfAttrs input.systemAttributes)
  sequenceNumber := sequenceNumber

/-- `UPDATE sqs_queues SET fifo_seq = fifo_seq + 1`, then the read of the new value: no row, no
value. -/
def nextFifoSeq (store : Store) (queueId : Nat) : Result (Nat × Store) :=
  match store.queues.get queueId with
  | some row => .ok (row.fifoSeq + 1, { store with
      queues := store.queues.modify queueId fun row => { row with fifoSeq := row.fifoSeq + 1 } })
  | none => .error (.internal "Query returned no rows")

/-- A message of a standard queue: no group is required and nothing is deduplicated. -/
def sendStandard (store : Store) (queue : SqsQueue) (input : SendInput) (delay now : Int) :
    Result (Sent × Store) := do
  let messageId := External.uuid store.drawn
  let store := { store with drawn := store.drawn + 1 }
  let (row, store) ←
    insertMessage store queue.id messageId input now (now + delay * 1000) none none
  return ({ outcome := sendOutcome input messageId none, row := some row }, store)

/-- A message of a FIFO queue that no unexpired record matches. -/
def sendFifoNew (store : Store) (queue : SqsQueue) (input : SendInput) (dedupId : String)
    (delay now : Int) : Result (Sent × Store) := do
  let (seq, store) ← nextFifoSeq store queue.id
  let sequenceNumber ← sequenceNumberOf seq
  let messageId := External.uuid store.drawn
  let store := { store with drawn := store.drawn + 1 }
  let (row, store) ← insertMessage store queue.id messageId input now (now + delay * 1000)
    (some dedupId) (some sequenceNumber)
  let store := { store with
    dedup := replaceDedup store.dedup
      { queueId := queue.id, dedupId, messageId, sequenceNumber
        expiresAt := now + dedupWindowMs } }
  return ({ outcome := sendOutcome input messageId (some sequenceNumber), row := some row }, store)

/-- On a duplicate the transaction is dropped: the store is the one before `refresh`. -/
def sendFifo (store : Store) (queue : SqsQueue) (input : SendInput) (delay now : Int) :
    Result (Sent × Store) := do
  let refreshed := refresh store queue now
  let dedupId ← effectiveDedupId queue input
  match findDedup refreshed queue.id dedupId now with
  | some existing =>
    let outcome := sendOutcome input existing.messageId (some existing.sequenceNumber)
    return ({ outcome, row := none }, store)
  | none => sendFifoNew refreshed queue input dedupId delay now

def sendTx (store : Store) (queue : SqsQueue) (input : SendInput) (now : Int) :
    Result (Sent × Store) := do
  let delay ← checkSend queue input
  if queue.isFifo then sendFifo store queue input delay now
  else sendStandard (refresh store queue now) queue input delay now

/-! ### ReceiveMessage -/

/-- Options for ReceiveMessage. -/
structure ReceiveOptions where
  max : Int
  visibilityTimeout : Option Int := none
  waitSeconds : Option Int := none
  systemAttributeNames : List String := []
  messageAttributeNames : List String := []

def wants (names : List String) (name : String) : Bool :=
  names.any fun wanted => wanted == "All" || wanted == name

def wantsMessageAttr (names : List String) (name : String) : Bool :=
  names.any fun wanted => wanted == "All" || wanted == ".*" || wanted == name ||
    match stripSuffix wanted ".*" with
    | some start => startsWith name (start ++ ".")
    | none => false

/-- A message returned by a receive, with the id of its row. -/
structure Delivery where
  row : Nat
  message : ReceivedMessage

/-- What a receive does: the messages it returns, in order, and the rows it moves to the
dead-letter queue, with that queue's id. -/
structure Received where
  deliveries : List Delivery
  redriven : List (Nat × Nat)

/-- The local variables of `receive_tx` that its loop reads. -/
structure Poll where
  queue : SqsQueue
  options : ReceiveOptions
  now : Int
  timeout : Int
  dlq : Option (SqsQueue × Int)

/-- The effective visibility timeout: the request's value, else the queue attribute. -/
def effectiveTimeout (queue : SqsQueue) (options : ReceiveOptions) : Int :=
  options.visibilityTimeout.getD (queue.attrI64 "VisibilityTimeout")

/-- The dead-letter queue of the redrive policy, if it exists, and `maxReceiveCount`. -/
def deadLetterQueue (store : Store) (queue : SqsQueue) : Option (SqsQueue × Int) := do
  let (arn, max) ← queue.redrive
  let dlq ← findQueue store (queueNameOf arn)
  return (dlq, max)

/-- Where the loop of `receive_tx` stands. -/
structure Scan where
  store : Store
  blocked : List String
  received : Received

def attrsFromColumn (column : Option Json) : MsgAttrs :=
  match parseAttrs column with
  | .ok attrs => attrs
  | .error _ => ∅

/-- Put a system attribute that the message has and the request wants. -/
def putAttribute (names : List String) (name : String) (value : Option String)
    (attributes : BTreeMap String) : BTreeMap String :=
  match value with
  | some value => if wants names name then attributes.insert name value else attributes
  | none => attributes

/-- The system attributes of a returned message. -/
def receivedAttributes (poll : Poll) (row : MessageRow) (count : Nat) (first : Int) :
    BTreeMap String :=
  let put := putAttribute poll.options.systemAttributeNames
  (∅ : BTreeMap String)
    |> put "SenderId" (some accountId)
    |> put "SentTimestamp" (some (toString row.sentAt))
    |> put "ApproximateReceiveCount" (some (toString count))
    |> put "ApproximateFirstReceiveTimestamp" (some (toString first))
    |> put "MessageGroupId" row.groupId
    |> put "MessageDeduplicationId" (if poll.queue.isFifo then row.dedupId else none)
    |> put "SequenceNumber" (if poll.queue.isFifo then row.sequenceNumber else none)
    |> put "DeadLetterQueueSourceArn" row.dlqSourceArn
    |> put "AWSTraceHeader"
      ((attrsFromColumn row.systemAttributes)["AWSTraceHeader"]?.bind MsgAttr.stringValue)

/-- The row after it was returned with the handle. -/
def deliveredRow (poll : Poll) (handle : String) (row : MessageRow) : MessageRow :=
  { row with
    receiptHandle := handle
    receiveCount := row.receiveCount + 1
    firstReceiveAt := some (row.firstReceiveAt.getD poll.now)
    visibleAt := poll.now + poll.timeout * 1000
    visible := decide (poll.timeout = 0) }

/-- The row after it was moved to the dead-letter queue. -/
def redrivenRow (poll : Poll) (dlq : SqsQueue) (handle : String) (row : MessageRow) : MessageRow :=
  { row with
    queueId := dlq.id
    receiveCount := 0
    firstReceiveAt := none
    visibleAt := poll.now
    visible := true
    dlqSourceArn := some poll.queue.arn
    receiptHandle := handle }

@[simp] theorem deliveredRow_handle (poll : Poll) (handle : String) (row : MessageRow) :
    (deliveredRow poll handle row).receiptHandle = handle := rfl

@[simp] theorem redrivenRow_handle (poll : Poll) (dlq : SqsQueue) (handle : String)
    (row : MessageRow) : (redrivenRow poll dlq handle row).receiptHandle = handle := rfl

@[simp] theorem deliveredRow_messageId (poll : Poll) (handle : String) (row : MessageRow) :
    (deliveredRow poll handle row).messageId = row.messageId := rfl

/-- The message as the receive returns it. -/
def receivedMessage (poll : Poll) (handle : String) (row : MessageRow) : ReceivedMessage where
  messageId := row.messageId
  receiptHandle := handle
  body := row.body
  attributes :=
    receivedAttributes poll row (row.receiveCount + 1) (row.firstReceiveAt.getD poll.now)
  messageAttributes := (attrsFromColumn row.messageAttributes).filter fun name _ =>
    wantsMessageAttr poll.options.messageAttributeNames name

def scanDelivering (poll : Poll) (scan : Scan) (id : Nat) (row : MessageRow) (handle : String) :
    Scan :=
  { scan with
    store := { scan.store with
      messages := scan.store.messages.modify id (deliveredRow poll handle)
      drawn := scan.store.drawn + 2 }
    received := { scan.received with
      deliveries := scan.received.deliveries ++
        [{ row := id, message := receivedMessage poll handle row }] } }

def deliver (poll : Poll) (scan : Scan) (id : Nat) (row : MessageRow) : Result Scan :=
  let handle := newReceiptHandle poll.queue.name row.messageId scan.store.drawn
  if handleTaken scan.store.messages id handle then .error uniqueViolation
  else .ok (scanDelivering poll scan id row handle)

def scanRedriving (poll : Poll) (dlq : SqsQueue) (scan : Scan) (id : Nat) (row : MessageRow)
    (handle : String) : Scan where
  store := { scan.store with
    messages := scan.store.messages.modify id (redrivenRow poll dlq handle)
    drawn := scan.store.drawn + 1 }
  -- Later messages of this group wait until the next receive.
  blocked :=
    match row.groupId with
    | some group => if poll.queue.isFifo then group :: scan.blocked else scan.blocked
    | none => scan.blocked
  received := { scan.received with redriven := scan.received.redriven ++ [(id, dlq.id)] }

def redriveMessage (poll : Poll) (dlq : SqsQueue) (scan : Scan) (id : Nat) (row : MessageRow) :
    Result Scan :=
  let handle := pendingHandle scan.store.drawn
  if handleTaken scan.store.messages id handle then .error uniqueViolation
  else .ok (scanRedriving poll dlq scan id row handle)

/-- Whether a message waits for another message of its group. -/
def groupBlocked (poll : Poll) (blocked : List String) (row : MessageRow) : Bool :=
  match row.groupId with
  | some group => poll.queue.isFifo && blocked.contains group
  | none => false

/-- One turn of the loop. -/
def scanCandidate (poll : Poll) (scan : Scan) (id : Nat) (row : MessageRow) : Result Scan :=
  if groupBlocked poll scan.blocked row then .ok scan
  else
    match poll.dlq with
    | some (dlq, max) =>
      if max ≤ (row.receiveCount : Int) then redriveMessage poll dlq scan id row
      else deliver poll scan id row
    | none => deliver poll scan id row

/-- The loop over the candidates, in row order, until enough messages are returned. -/
def scanCandidates (poll : Poll) : List (Nat × MessageRow) → Scan → Result Scan
  | [], scan => .ok scan
  | (id, row) :: rest, scan =>
    if poll.options.max ≤ (scan.received.deliveries.length : Int) then .ok scan
    else do
      let scan ← scanCandidate poll scan id row
      scanCandidates poll rest scan

/-- The groups of a FIFO queue with a message in flight. -/
def blockedGroups (store : Store) (queue : SqsQueue) (now : Int) : List String :=
  if queue.isFifo then
    (store.messages.select fun row => row.queueId == queue.id && decide (now < row.visibleAt) &&
      decide (0 < row.receiveCount)).filterMap fun row => row.2.groupId
  else []

/-- The messages of the queue that are due, oldest row first. -/
def candidates (store : Store) (queue : SqsQueue) (now : Int) : List (Nat × MessageRow) :=
  store.messages.select fun row => row.queueId == queue.id && decide (row.visibleAt ≤ now)

def pollOf (store : Store) (queue : SqsQueue) (options : ReceiveOptions) (now : Int) : Poll where
  queue := queue
  options := options
  now := now
  timeout := effectiveTimeout queue options
  dlq := deadLetterQueue store queue

/-- Where the loop begins. -/
def scanStart (store : Store) (queue : SqsQueue) (now : Int) : Scan where
  store := store
  blocked := blockedGroups store queue now
  received := { deliveries := [], redriven := [] }

def receiveTx (store : Store) (queue : SqsQueue) (options : ReceiveOptions) (now : Int) :
    Result (Received × Store) := do
  let refreshed := refresh store queue now
  let scan ← scanCandidates (pollOf refreshed queue options now) (candidates refreshed queue now)
    (scanStart refreshed queue now)
  return (scan.received, scan.store)

/-! ### DeleteMessage and ChangeMessageVisibility -/

/-- The rows of the queue with the handle. -/
def hasHandle (queue : SqsQueue) (handle : String) (row : MessageRow) : Bool :=
  row.queueId == queue.id && row.receiptHandle == handle

def deleteMessageTx (store : Store) (queue : SqsQueue) (handle : String) : Result Store :=
  if handle.isEmpty then .error (.missingParameter "ReceiptHandle")
  else
    let count := (store.messages.select (hasHandle queue handle)).length
    if count = 0 ∧ (parseReceiptHandle handle).isNone then .error (.receiptHandleInvalid handle)
    else .ok { store with messages := store.messages.delete fun _ row => hasHandle queue handle row }

/-- The first message of the queue with the id. -/
def findMessage (store : Store) (queue : SqsQueue) (messageId : String) : Option MessageRow :=
  (store.messages.rows.find? fun row =>
    row.2.queueId == queue.id && row.2.messageId == messageId).map Prod.snd

def changeVisibilityTx (store : Store) (queue : SqsQueue) (handle : String) (timeout now : Int) :
    Result Store :=
  if handle.isEmpty then .error (.missingParameter "ReceiptHandle")
  else if ¬ (0 ≤ timeout ∧ timeout ≤ maxVisibility) then
    .error (.invalidParameter ("Value " ++ toString timeout ++ " for parameter " ++
      "VisibilityTimeout is invalid. Reason: Must be between 0 and 43200, if provided."))
  else if 0 < (store.messages.select (hasHandle queue handle)).length then
    .ok { store with
      messages := store.messages.update (fun _ row => hasHandle queue handle row) fun row =>
        { row with visibleAt := now + timeout * 1000, visible := decide (timeout = 0) } }
  else
    match parseReceiptHandle handle with
    | none => .error (.receiptHandleInvalid handle)
    | some messageId =>
      match findMessage store queue messageId with
      | some row =>
        if row.visibleAt ≤ now then .error .messageNotInflight
        else .error (unavailable handle)
      | none => .error (unavailable handle)
where
  unavailable (handle : String) : SqsError :=
    .invalidParameter ("Value " ++ handle ++ " for parameter ReceiptHandle is invalid. Reason: " ++
      "Message does not exist or is not available for visibility timeout change.")

/-! ### GetQueueAttributes -/

def computedAttrs : List String :=
  ["QueueArn", "ApproximateNumberOfMessages", "ApproximateNumberOfMessagesNotVisible",
    "ApproximateNumberOfMessagesDelayed", "CreatedTimestamp", "LastModifiedTimestamp"]

def configAttrs : List String :=
  ["VisibilityTimeout", "DelaySeconds", "MaximumMessageSize", "MessageRetentionPeriod",
    "ReceiveMessageWaitTimeSeconds", "SqsManagedSseEnabled", "Policy", "RedrivePolicy",
    "RedriveAllowPolicy", "KmsMasterKeyId", "KmsDataKeyReusePeriodSeconds", "FifoQueue",
    "ContentBasedDeduplication", "DeduplicationScope", "FifoThroughputLimit"]

def fifoAttrs : List String :=
  ["FifoQueue", "ContentBasedDeduplication", "DeduplicationScope", "FifoThroughputLimit"]

/-- The value of a computed attribute. -/
def computedAttr (store : Store) (queue : SqsQueue) (now : Int) : String → String
  | "QueueArn" => queue.arn
  | "ApproximateNumberOfMessages" => count fun row => decide (row.visibleAt ≤ now)
  | "ApproximateNumberOfMessagesNotVisible" =>
    count fun row => decide (now < row.visibleAt) && decide (0 < row.receiveCount)
  | "ApproximateNumberOfMessagesDelayed" =>
    count fun row => decide (now < row.visibleAt) && decide (row.receiveCount = 0)
  | "CreatedTimestamp" => toString queue.createdTs
  | _ => toString queue.modifiedTs
where
  count (condition : MessageRow → Bool) : String :=
    toString (store.messages.select fun row => row.queueId == queue.id && condition row).length

def getAttributesTx (store : Store) (queue : SqsQueue) (names : List String) (now : Int) :
    Result (BTreeMap String × Store) := do
  if let some name := names.find? fun name =>
      name != "All" && !computedAttrs.contains name && !configAttrs.contains name then
    throw (unknownAttribute name)
  let wanted (name : String) := names.contains "All" || names.contains name
  let store := refresh store queue now
  let out := computedAttrs.foldl (fun out name =>
    if wanted name then out.insert name (computedAttr store queue now name) else out)
    (∅ : BTreeMap String)
  let out := configAttrs.foldl (fun out name =>
    if !wanted name || (!queue.isFifo && fifoAttrs.contains name) then out
    else
      match effectiveAttr queue name with
      | some value => out.insert name value
      | none => out) out
  return (out, store)

end External

end CloudTwin.Sqs
