/-
**SQS records and message-attribute values** (`aws/sqs/models.rs`, `aws/sqs/errors.rs`).

A `BTreeMap` is an `ExtTreeMap` over the same keys in the same order. `SqsError` carries the code,
the legacy query code, the message and the fault of the error the service answers with.
-/

import Mathlib
import CloudTwin.External
import CloudTwin.Lib.Base64

namespace CloudTwin.Sqs

open Lib.Text

/-- `crate::aws::ACCOUNT_ID`. -/
def accountId : String := "000000000000"

/-- `crate::aws::REGION`. -/
def region : String := "us-east-1"

/-- `BTreeMap<String, _>`. -/
abbrev BTreeMap (α : Type) := Std.ExtTreeMap String α compare

/-! ### Errors -/

structure SqsError where
  code : String
  queryCode : String
  message : String
  senderFault : Bool
  deriving DecidableEq

namespace SqsError

def sender (code queryCode message : String) : SqsError where
  code := code
  queryCode := queryCode
  message := message
  senderFault := true

def queueDoesNotExist : SqsError :=
  sender "QueueDoesNotExist" "AWS.SimpleQueueService.NonExistentQueue"
    "The specified queue does not exist."

def queueNameExists (message : String) : SqsError :=
  sender "QueueNameExists" "QueueAlreadyExists" message

def receiptHandleInvalid (handle : String) : SqsError :=
  sender "ReceiptHandleIsInvalid" "ReceiptHandleIsInvalid"
    ("The input receipt handle \"" ++ handle ++ "\" is not a valid receipt handle.")

def messageNotInflight : SqsError :=
  sender "MessageNotInflight" "AWS.SimpleQueueService.MessageNotInflight"
    "The message referred to isn't in flight."

def invalidAttributeName (message : String) : SqsError :=
  sender "InvalidAttributeName" "InvalidAttributeName" message

def invalidAttributeValue (message : String) : SqsError :=
  sender "InvalidAttributeValue" "InvalidAttributeValue" message

def invalidParameter (message : String) : SqsError :=
  sender "InvalidParameterValue" "InvalidParameterValue" message

def missingParameter (name : String) : SqsError :=
  sender "MissingParameter" "MissingParameter"
    ("The request must contain the parameter " ++ name ++ ".")

def invalidMessageContents (message : String) : SqsError :=
  sender "InvalidMessageContents" "InvalidMessageContents" message

def internal (message : String) : SqsError where
  code := "InternalError"
  queryCode := "InternalError"
  message := message
  senderFault := false

end SqsError

/-- `errors::Result`. -/
abbrev Result (α : Type) := Except SqsError α

/-- A computation in steps succeeds when each step does. -/
theorem bind_ok {α β : Type} {first : Result α} {rest : α → Result β} {value : β}
    (done : (first >>= rest) = .ok value) : ∃ middle, first = .ok middle ∧ rest middle = .ok value := by
  cases first with
  | error error => cases done
  | ok middle => exact ⟨middle, rfl, done⟩

theorem ok_of_toOption {α : Type} {result : Result α} {value : α}
    (found : result.toOption = some value) : result = .ok value := by
  cases result with
  | error error => cases found
  | ok other => exact congrArg Except.ok (Option.some.inj found)

/-- `if condition { return Err(error) }`. -/
def rejectIf (condition : Prop) [Decidable condition] (error : SqsError) : Result Unit :=
  if condition then .error error else .ok ()

theorem rejectIf_ok {condition : Prop} [Decidable condition] {error : SqsError} {value : Unit} :
    rejectIf condition error = .ok value ↔ ¬ condition := by
  unfold rejectIf
  by_cases here : condition
  · simp [here]
  · simp [here]

/-! ### Message attributes -/

/-- One typed message attribute. -/
structure MsgAttr where
  dataType : String
  stringValue : Option String
  binaryValue : Option (List UInt8)
  deriving DecidableEq

/-- Message attributes keyed (and therefore sorted) by name. -/
abbrev MsgAttrs := BTreeMap MsgAttr

namespace MsgAttr

def isBinary (attr : MsgAttr) : Bool :=
  startsWith attr.dataType "Binary"

/-- Bytes counted toward the message size limit and hashed for the MD5. -/
def valueBytes (attr : MsgAttr) : List UInt8 :=
  if attr.isBinary then attr.binaryValue.getD []
  else utf8 (attr.stringValue.getD "")

def toJson (attr : MsgAttr) : Json :=
  .obj <|
    (match attr.binaryValue with
      | some bytes => [("BinaryValue", .str (Lib.Base64.standardEncode bytes))]
      | none => []) ++
    [("DataType", .str attr.dataType)] ++
    (match attr.stringValue with
      | some text => [("StringValue", .str text)]
      | none => [])

end MsgAttr

def attrsToJson (attrs : MsgAttrs) : Json :=
  .obj (attrs.toList.map fun entry => (entry.1, entry.2.toJson))

section External

variable [External]

/-- One entry of `parse_attrs`. -/
def parseAttr (name : String) (value : Json) : Except String MsgAttr := do
  if name.isEmpty || name.utf8ByteSize > 256 then
    throw ("Message attribute name '" ++ name ++ "' is invalid.")
  let some dataType := (value.get "DataType").bind Json.asStr
    | throw ("The message attribute '" ++ name ++ "' must contain a non-empty attribute type.")
  let base := beforeFirst '.' dataType
  let stringValue := (value.get "StringValue").bind Json.asStr
  let binaryValue ← match (value.get "BinaryValue").bind Json.asStr with
    | some text =>
      match Lib.Base64.standardDecode text with
      | some bytes => pure (some bytes)
      | none => throw ("The message attribute '" ++ name ++ "' has an invalid binary value.")
    | none => pure none
  if base = "String" ∨ base = "Number" then
    let some text := stringValue
      | throw ("The message attribute '" ++ name ++ "' with type '" ++ base ++
          "' must use field 'String'.")
    if base = "Number" ∧ External.parsesF64 (trim text) = false then
      throw ("Can't cast the value of message attribute '" ++ name ++ "' to a number.")
  else if base = "Binary" then
    if binaryValue.isNone then
      throw ("The message attribute '" ++ name ++ "' with type 'Binary' must use field 'Binary'.")
  else
    throw ("The type of message attribute '" ++ name ++ "' is invalid. You must use only the " ++
      "following supported type prefixes: Binary, Number, String.")
  return { dataType, stringValue, binaryValue }

/-- The members of an attribute object, first error first. -/
def parseMembers : List (String × Json) → MsgAttrs → Except String MsgAttrs
  | [], attrs => .ok attrs
  | (name, value) :: rest, attrs => do
    let attr ← parseAttr name value
    parseMembers rest (attrs.insert name attr)

/-- Parse and validate attributes in the SQS JSON shape. -/
def parseAttrs : Option Json → Except String MsgAttrs
  | none => .ok ∅
  | some .null => .ok ∅
  | some (.obj members) => parseMembers members ∅
  | some _ => .error "MessageAttributes must be a map"

/-- `(len as u32).to_be_bytes()`, then the bytes. -/
def lengthPrefixed (bytes : List UInt8) : List UInt8 :=
  let length := bytes.length % 2 ^ 32
  [UInt8.ofNat (length / 2 ^ 24), UInt8.ofNat (length / 2 ^ 16 % 256),
    UInt8.ofNat (length / 2 ^ 8 % 256), UInt8.ofNat (length % 256)] ++ bytes

/-- MD5 over message attributes as SQS computes `MD5OfMessageAttributes`. -/
def md5OfAttrs (attrs : MsgAttrs) : String :=
  External.md5Hex <| attrs.toList.flatMap fun (name, attr) =>
    lengthPrefixed (utf8 name) ++ lengthPrefixed (utf8 attr.dataType) ++
      [if attr.isBinary then 2 else 1] ++ lengthPrefixed attr.valueBytes

end External

/-! ### Queues -/

/-- A queue row with its configured attributes and tags. -/
structure SqsQueue where
  id : Nat
  name : String
  attributes : BTreeMap String
  tags : BTreeMap String
  createdTs : Int
  modifiedTs : Int

def queueArn (name : String) : String :=
  "arn:aws:sqs:" ++ region ++ ":" ++ accountId ++ ":" ++ name

/-- Defaults for configurable queue attributes (as AWS reports them). -/
def defaultAttr : String → Option String
  | "VisibilityTimeout" => some "30"
  | "DelaySeconds" => some "0"
  | "MessageRetentionPeriod" => some "345600"
  | "ReceiveMessageWaitTimeSeconds" => some "0"
  | "MaximumMessageSize" => some "262144"
  | "SqsManagedSseEnabled" => some "false"
  | _ => none

/-- `SqsQueue::attr_bool` on the attribute map. -/
def attrBoolOf (attributes : BTreeMap String) (name : String) : Bool :=
  match attributes[name]? with
  | some value => eqIgnoreAsciiCase value "true"
  | none => false

namespace SqsQueue

def arn (queue : SqsQueue) : String :=
  queueArn queue.name

def attrI64 (queue : SqsQueue) (name : String) : Int :=
  match (queue.attributes[name]?).bind parseI64 with
  | some value => value
  | none => ((defaultAttr name).bind parseI64).getD 0

def attrBool (queue : SqsQueue) (name : String) : Bool :=
  attrBoolOf queue.attributes name

def isFifo (queue : SqsQueue) : Bool :=
  queue.attrBool "FifoQueue"

/-- `(deadLetterTargetArn, maxReceiveCount)` from the RedrivePolicy. -/
def redrive [External] (queue : SqsQueue) : Option (String × Int) := do
  let text ← queue.attributes["RedrivePolicy"]?
  let value ← External.jsonFromStr text
  let arn ← (← value.get "deadLetterTargetArn").asStr
  let max ← value.get "maxReceiveCount"
  let max ← max.asI64.or (max.asStr.bind parseI64)
  return (arn, max)

end SqsQueue

/-! ### Messages -/

/-- A message returned by ReceiveMessage. -/
structure ReceivedMessage where
  messageId : String
  receiptHandle : String
  body : String
  attributes : BTreeMap String
  messageAttributes : MsgAttrs

/-- Result of a successful send. -/
structure SendOutcome where
  messageId : String
  md5Body : String
  md5Attrs : Option String
  md5SystemAttrs : Option String
  sequenceNumber : Option String
  deriving DecidableEq

/-- Input for a single send. -/
structure SendInput where
  body : String
  delaySeconds : Option Int := none
  attributes : MsgAttrs := ∅
  systemAttributes : MsgAttrs := ∅
  groupId : Option String := none
  dedupId : Option String := none

end CloudTwin.Sqs
