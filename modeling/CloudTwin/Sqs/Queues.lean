/-
**Queue configuration** (`aws/sqs/service.rs`): attribute validation, CreateQueue, and the second
database call of SetQueueAttributes, TagQueue, UntagQueue, PurgeQueue and DeleteQueue.

The second calls take the queue that an earlier call has read (`get_queue`), which need not be the
queue as it is now: this is where two requests can interleave.
-/

import CloudTwin.Sqs.Store

namespace CloudTwin.Sqs

open Lib Lib.Text

set_option linter.unusedSectionVars false

section External

variable [External]

def maxVisibility : Int := 43200

def validQueueName (name : String) : Bool :=
  let base := (stripSuffix name ".fifo").getD name
  !base.isEmpty && name.utf8ByteSize ≤ 80 &&
    base.toList.all fun char => isAsciiAlphanumeric char || char == '-' || char == '_'

/-- Effective value of a configurable attribute (stored value or AWS default). -/
def effectiveAttr (queue : SqsQueue) (name : String) : Option String :=
  match queue.attributes[name]? with
  | some value => some value
  | none =>
    match defaultAttr name with
    | some value => some value
    | none =>
      if queue.isFifo then
        match name with
        | "ContentBasedDeduplication" => some "false"
        | "DeduplicationScope" => some "queue"
        | "FifoThroughputLimit" => some "perQueue"
        | "FifoQueue" => some "true"
        | _ => none
      else if name = "FifoQueue" then some "false"
      else none

def invalidValue (name : String) : SqsError :=
  .invalidAttributeValue ("Invalid value for the parameter " ++ name ++ ".")

def unknownAttribute (name : String) : SqsError :=
  .invalidAttributeName ("Unknown Attribute " ++ name ++ ".")

def parseBoolAttr (name value : String) : Result String :=
  match toAsciiLowercase value with
  | "true" => .ok "true"
  | "false" => .ok "false"
  | _ => .error (invalidValue name)

def parseIntAttr (name value : String) (min max : Int) : Result String :=
  match parseI64 (trim value) with
  | some number =>
    if min ≤ number ∧ number ≤ max then .ok (toString number) else .error (invalidValue name)
  | none => .error (invalidValue name)

def badRedrive (value reason : String) : SqsError :=
  .invalidParameter
    ("Value " ++ value ++ " for parameter RedrivePolicy is invalid. Reason: " ++ reason)

def normalizeRedrive (store : Store) (value : String) (fifo : Bool) : Result String := do
  if value.isEmpty then
    return ""
  let some parsed := External.jsonFromStr value
    | throw (badRedrive value "Redrive policy is not a valid JSON map.")
  let some arn := (parsed.get "deadLetterTargetArn").bind Json.asStr
    | throw (badRedrive value
        "Redrive policy does not contain mandatory attribute: deadLetterTargetArn.")
  let some max := (parsed.get "maxReceiveCount").bind fun max =>
      max.asI64.or (max.asStr.bind fun text => parseI64 (trim text))
    | throw (badRedrive value
        "Redrive policy does not contain mandatory attribute: maxReceiveCount.")
  rejectIf (¬ (1 ≤ max ∧ max ≤ 1000))
    (badRedrive value "Invalid value for maxReceiveCount: must be between 1 and 1000.")
  let some dlq := findQueue store (queueNameOf arn)
    | throw (badRedrive value "Dead letter target does not exist.")
  rejectIf (dlq.isFifo ≠ fifo)
    (badRedrive value "Dead-letter queue must be same type of queue as the source.")
  return External.jsonToString
    (.obj [("deadLetterTargetArn", .str arn), ("maxReceiveCount", .num max)])

/-- One attribute of `validate_attributes`. -/
def validateAttribute (store : Store) (fifo : Bool) (name value : String) : Result String :=
  match name with
  | "VisibilityTimeout" => parseIntAttr name value 0 maxVisibility
  | "DelaySeconds" => parseIntAttr name value 0 900
  | "MaximumMessageSize" => parseIntAttr name value 1024 1048576
  | "MessageRetentionPeriod" => parseIntAttr name value 60 1209600
  | "ReceiveMessageWaitTimeSeconds" => parseIntAttr name value 0 20
  | "KmsDataKeyReusePeriodSeconds" => parseIntAttr name value 60 86400
  | "SqsManagedSseEnabled" => parseBoolAttr name value
  | "KmsMasterKeyId" => .ok value
  | "FifoQueue" => parseBoolAttr name value
  | "ContentBasedDeduplication" =>
    if fifo then parseBoolAttr name value else .error (unknownAttribute name)
  | "DeduplicationScope" =>
    if !fifo then .error (unknownAttribute name)
    else if value = "messageGroup" ∨ value = "queue" then .ok value
    else .error (invalidValue name)
  | "FifoThroughputLimit" =>
    if !fifo then .error (unknownAttribute name)
    else if value = "perQueue" ∨ value = "perMessageGroupId" then .ok value
    else .error (invalidValue name)
  | "Policy" | "RedriveAllowPolicy" =>
    if !value.isEmpty ∧ (External.jsonFromStr value).isNone then
      .error (.invalidAttributeValue ("Invalid value for the parameter " ++ name ++
        ". Reason: " ++ name ++ " must be valid JSON."))
    else .ok value
  | "RedrivePolicy" => normalizeRedrive store value fifo
  | _ => .error (unknownAttribute name)

/-- The attributes in key order, first error first. -/
def validateEach (store : Store) (fifo : Bool) :
    List (String × String) → BTreeMap String → Result (BTreeMap String)
  | [], out => .ok out
  | (name, value) :: rest, out => do
    let normalized ← validateAttribute store fifo name value
    validateEach store fifo rest (out.insert name normalized)

/-- Validate and normalize settable queue attributes. -/
def validateAttributes (store : Store) (queueName : String) (attrs : BTreeMap String)
    (creating : Bool) : Result (BTreeMap String) :=
  let fifo :=
    if creating then attrBoolOf attrs "FifoQueue"
    else endsWith queueName ".fifo"
  validateEach store fifo attrs.toList ∅

/-! ### CreateQueue -/

/-- The first attribute whose effective value differs from the requested one. -/
def conflictingAttr (existing : SqsQueue) (normalized : BTreeMap String) : Option String :=
  (normalized.toList.find? fun entry =>
    (effectiveAttr existing entry.1).getD "" != entry.2).map Prod.fst

def createQueueTx (store : Store) (name url : String) (attributes tags : BTreeMap String)
    (now : Int) : Result Store := do
  rejectIf (validQueueName name = false) (.invalidParameter
    "Can only include alphanumeric characters, hyphens, or underscores. 1 to 80 in length")
  let normalized ← validateAttributes store name attributes true
  let fifo := normalized["FifoQueue"]? == some "true"
  rejectIf (fifo ≠ endsWith name ".fifo") (.invalidParameter (if fifo then
    "The name of a FIFO queue can only include alphanumeric characters, hyphens, or " ++
      "underscores, must end with .fifo suffix and be 1 to 80 in length."
    else "Can only include alphanumeric characters, hyphens, or underscores. 1 to 80 in length"))
  match findQueue store name with
  | some existing =>
    match conflictingAttr existing normalized with
    | some attr => throw (.queueNameExists
        ("A queue already exists with the same name and a different value for attribute " ++ attr))
    | none => return store
  | none =>
    return { store with
      queues := store.queues.insert
        { name, url
          attributes := normalized.filter fun _ value => !value.isEmpty
          tags
          createdTs := now / 1000
          modifiedTs := now / 1000
          fifoSeq := 0 } }

/-! ### SetQueueAttributes, tags, purge, delete -/

/-- An empty value removes the setting; any other value replaces it. -/
def mergeAttributes (current normalized : BTreeMap String) : BTreeMap String :=
  normalized.toList.foldl (fun merged (name, value) =>
    if value.isEmpty then merged.erase name else merged.insert name value) current

/-- The second call of `set_queue_attributes`, on the queue the first call has read. -/
def setQueueAttributesTx (store : Store) (queue : SqsQueue) (attributes : BTreeMap String)
    (now : Int) : Result Store := do
  let normalized ← validateAttributes store queue.name attributes false
  rejectIf (∃ value ∈ normalized["FifoQueue"]?, (value == "true") ≠ queue.isFifo)
    (.invalidAttributeValue ("Invalid value for the parameter FifoQueue. Reason: " ++
      "Modifying queue type is not supported."))
  return { store with
    queues := store.queues.modify queue.id fun row =>
      { row with
        attributes := mergeAttributes queue.attributes normalized
        modifiedTs := now / 1000 } }

def writeTags (store : Store) (id : Nat) (tags : BTreeMap String) : Result Store :=
  if tags.size > 50 then .error (.invalidParameter "Too many tags added for queue.")
  else .ok { store with queues := store.queues.modify id fun row => { row with tags } }

/-- `merged.extend(tags)`. -/
def extendTags (current tags : BTreeMap String) : BTreeMap String :=
  tags.toList.foldl (fun merged (name, value) => merged.insert name value) current

/-- `for k in keys { merged.remove(&k); }`. -/
def removeTags (current : BTreeMap String) (keys : List String) : BTreeMap String :=
  keys.foldl (fun merged key => merged.erase key) current

def tagQueueTx (store : Store) (queue : SqsQueue) (tags : BTreeMap String) : Result Store :=
  writeTags store queue.id (extendTags queue.tags tags)

def untagQueueTx (store : Store) (queue : SqsQueue) (keys : List String) : Result Store :=
  writeTags store queue.id (removeTags queue.tags keys)

def purgeQueueTx (store : Store) (queue : SqsQueue) : Store :=
  { store with messages := store.messages.delete fun _ row => row.queueId == queue.id }

def deleteQueueTx (store : Store) (queue : SqsQueue) : Store :=
  { store with
    messages := store.messages.delete fun _ row => row.queueId == queue.id
    dedup := store.dedup.filter fun row => row.queueId != queue.id
    queues := store.queues.delete fun id _ => id == queue.id }

/-! ### What the calls do when they succeed -/

/-- The attributes that a new queue stores. -/
def storedAttributes (normalized : BTreeMap String) : BTreeMap String :=
  normalized.filter fun _ value => !value.isEmpty

theorem createQueueTx_ok {store after : Store} {name url : String}
    {attributes tags : BTreeMap String} {now : Int}
    (done : createQueueTx store name url attributes tags now = .ok after) :
    validQueueName name = true ∧ ∃ normalized,
      validateAttributes store name attributes true = .ok normalized ∧
      ((∃ existing, findQueue store name = some existing ∧ after = store) ∨
        (findQueue store name = none ∧ after = { store with
          queues := store.queues.insert
            { name, url, attributes := storedAttributes normalized, tags
              createdTs := now / 1000, modifiedTs := now / 1000, fifoSeq := 0 } })) := by
  unfold createQueueTx at done
  obtain ⟨_, valid, rest⟩ := bind_ok done
  obtain ⟨normalized, validated, rest⟩ := bind_ok rest
  obtain ⟨_, _, rest⟩ := bind_ok rest
  have named : validQueueName name = true := by
    rw [← Bool.not_eq_false]
    exact rejectIf_ok.mp valid
  refine ⟨named, normalized, validated, ?_⟩
  cases found : findQueue store name with
  | none =>
    rw [found] at rest
    cases rest
    exact Or.inr ⟨rfl, rfl⟩
  | some existing =>
    rw [found] at rest
    simp only at rest
    split at rest
    · cases rest
    · cases rest
      exact Or.inl ⟨existing, rfl, rfl⟩

theorem setQueueAttributesTx_ok {store after : Store} {queue : SqsQueue}
    {attributes : BTreeMap String} {now : Int}
    (done : setQueueAttributesTx store queue attributes now = .ok after) :
    ∃ normalized, validateAttributes store queue.name attributes false = .ok normalized ∧
      (∀ value, normalized["FifoQueue"]? = some value → (value == "true") = queue.isFifo) ∧
      after = { store with
        queues := store.queues.modify queue.id fun row =>
          { row with
            attributes := mergeAttributes queue.attributes normalized
            modifiedTs := now / 1000 } } := by
  unfold setQueueAttributesTx at done
  obtain ⟨normalized, validated, rest⟩ := bind_ok done
  obtain ⟨_, allowed, rest⟩ := bind_ok rest
  cases rest
  refine ⟨normalized, validated, fun value setting => ?_, rfl⟩
  by_contra different
  exact rejectIf_ok.mp allowed ⟨value, setting, different⟩

theorem writeTags_ok {store after : Store} {id : Nat} {tags : BTreeMap String}
    (done : writeTags store id tags = .ok after) :
    tags.size ≤ 50 ∧
      after = { store with queues := store.queues.modify id fun row => { row with tags } } := by
  unfold writeTags at done
  split at done
  · cases done
  · rename_i few
    cases done
    exact ⟨not_lt.mp few, rfl⟩

end External

end CloudTwin.Sqs
