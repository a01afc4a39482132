/-
**SNS messages delivered raw to SQS** (`aws/sns/delivery.rs`, `sqs::send_with`).

A publish checks the message and its attributes, by rules that are not those of SQS. A raw delivery
hands the attributes on as they are; SQS stores them without a check, and checks them when it reads
them back.

* `validateAttributes`, `publish`, `rawInput` — from a request to the input of a send.
* `Conforms` — what SQS asks of the attributes beyond what SNS has checked.
* `attributes_survive` — a receive returns the attributes of a raw delivery if and only if they
  conform, and those of `SendMessage` always; the digests tell maps apart up to unused values.
* `attributes_lost` — one custom number that is not a number, and no attribute is returned.
-/

import CloudTwin.Lib.Transaction
import CloudTwin.Sqs.MessageAttributes

namespace CloudTwin.Sns

open Lib Lib.Text Sqs

set_option linter.unusedSectionVars false

/-! ### Errors and data -/

structure SnsError where
  code : String
  message : String
  deriving DecidableEq

def SnsError.invalid (message : String) : SnsError :=
  ⟨"InvalidParameter", message⟩

def SnsError.invalidValue (message : String) : SnsError :=
  ⟨"ParameterValueInvalid", message⟩

abbrev SnsResult := Except SnsError

/-- What a publish reads of its topic. -/
structure SnsTopic where
  isFifo : Bool
  contentBasedDeduplication : Bool

structure PublishRequest where
  message : String
  subject : Option String
  messageStructure : Option String
  attributes : MsgAttrs
  groupId : Option String
  dedupId : Option String

/-- What is delivered to the subscriptions. -/
structure Outgoing where
  bodies : BTreeMap String
  attributes : MsgAttrs
  groupId : Option String
  dedupId : Option String

def Outgoing.bodyFor (out : Outgoing) (protocol : String) : String :=
  (out.bodies[protocol]?.or out.bodies["default"]?).getD ""

section External

variable [External]

/-! ### Publishing -/

/-- The type and the value of an attribute that SNS takes. -/
def isSupported (attr : MsgAttr) : Bool :=
  let kind := attr.dataType
  if kind = "String" ∨ kind = "String.Array" then attr.stringValue.isSome
  else if kind = "Number" then attr.stringValue.any fun text => External.parsesF64 (trim text)
  else if kind = "Binary" then attr.binaryValue.isSome
  else if startsWith kind "String." ∨ startsWith kind "Number." then attr.stringValue.isSome
  else if startsWith kind "Binary." then attr.binaryValue.isSome
  else false

def isJsonArray (text : String) : Bool :=
  match External.jsonFromStr text with
  | some (.arr _) => true
  | _ => false

/-- One attribute of `validate_attributes`. -/
def validateEntry (entry : String × MsgAttr) : SnsResult Unit := do
  let (name, attr) := entry
  Lib.rejectIf (isSupported attr = false)
    (SnsError.invalidValue ("The message attribute '" ++ name ++ "' has an invalid message " ++
      "attribute type, the set of supported type prefixes is Binary, Number, and String."))
  Lib.rejectIf (attr.dataType = "String.Array" ∧ isJsonArray (attr.stringValue.getD "") = false)
    (SnsError.invalidValue ("The message attribute '" ++ name ++ "' with type 'String.Array' " ++
      "must contain a JSON array."))

def validateAttributes : List (String × MsgAttr) → SnsResult Unit
  | [] => .ok ()
  | entry :: rest => do
    validateEntry entry
    validateAttributes rest

def maxMessageBytes : Nat := 262144

/-- `char::is_control`. -/
def isControl (char : Char) : Bool :=
  char.toNat < 32 || (127 ≤ char.toNat && char.toNat < 160)

/-- The checks of a publish before it looks at the message structure. -/
def checkPublish (request : PublishRequest) : SnsResult Unit := do
  Lib.rejectIf (request.message.isEmpty) (.invalid "Invalid parameter: Empty message")
  Lib.rejectIf (maxMessageBytes < request.message.utf8ByteSize + attrsSize request.attributes)
    (.invalid "Invalid parameter: Message too long")
  Lib.rejectIf (request.subject.any fun subject =>
      subject.isEmpty || 100 < subject.length || subject.toList.any isControl)
    (.invalid "Invalid parameter: Subject")
  validateAttributes request.attributes.toList

/-- A member of a message that is a JSON map of bodies. -/
def bodyText : Json → String
  | .str text => text
  | other => External.jsonToString other

/-- The bodies by protocol. -/
def messageBodies (request : PublishRequest) : SnsResult (BTreeMap String) :=
  if request.messageStructure = some "json" then
    match External.jsonFromStr request.message with
    | some (.obj members) =>
      let bodies : BTreeMap String :=
        members.foldl (fun bodies member => bodies.insert member.1 (bodyText member.2)) ∅
      if bodies.contains "default" then .ok bodies
      else .error (.invalid ("Invalid parameter: Message Structure - No default entry in JSON " ++
        "message body"))
    | _ => .error (.invalid ("Invalid parameter: Message Structure - JSON message body failed to " ++
        "parse"))
  else if request.messageStructure.any fun structure' => !structure'.isEmpty then
    .error (.invalid "Invalid parameter: MessageStructure")
  else .ok ((∅ : BTreeMap String).insert "default" request.message)

/-- The group and the deduplication id of the message on the topic. -/
def messageGroup (topic : SnsTopic) (request : PublishRequest) :
    SnsResult (Option String × Option String) :=
  if topic.isFifo then
    if (request.groupId.getD "").isEmpty then
      .error (.invalid "Invalid parameter: The MessageGroupId parameter is required for FIFO topics")
    else
      match request.dedupId.filter fun id => !id.isEmpty with
      | some id => .ok (request.groupId, some id)
      | none =>
        if topic.contentBasedDeduplication then
          .ok (request.groupId, some (External.sha256Hex (utf8 request.message)))
        else .error (.invalid ("Invalid parameter: The topic should either have " ++
          "ContentBasedDeduplication enabled or MessageDeduplicationId provided explicitly"))
  else .ok (request.groupId.filter fun id => !id.isEmpty, none)

/-- **A publish, up to the deliveries.** -/
def publish (topic : SnsTopic) (request : PublishRequest) : SnsResult Outgoing := do
  checkPublish request
  let bodies ← messageBodies request
  let (groupId, dedupId) ← messageGroup topic request
  return { bodies, attributes := request.attributes, groupId, dedupId }

/-- **The send of a raw delivery**; the uuid is drawn for a FIFO queue. -/
def rawInput (queue : SqsQueue) (out : Outgoing) (uuid : String) : SendInput where
  body := out.bodyFor "sqs"
  attributes := out.attributes
  groupId := if queue.isFifo then some (out.groupId.getD "cloudtwin") else out.groupId
  dedupId := if queue.isFifo then some (out.dedupId.getD uuid) else none

/-! ### What SNS has checked -/

theorem validateAttributes_supported {entries : List (String × MsgAttr)}
    (done : validateAttributes entries = .ok ()) :
    ∀ entry ∈ entries, isSupported entry.2 = true := by
  induction entries with
  | nil => exact fun _ => nofun
  | cons entry rest ih =>
    obtain ⟨_, first, rest⟩ := Lib.bind_ok done
    obtain ⟨_, supported, _⟩ := Lib.bind_ok first
    intro other member
    rcases List.mem_cons.mp member with same | later
    · rw [same]
      simpa using Lib.rejectIf_ok.mp supported
    · exact ih rest other later

/-- A name of a length that SQS takes. -/
def isNamed (name : String) : Bool :=
  !(name.isEmpty || name.utf8ByteSize > 256)

/-- A text that SQS takes for a number. -/
def isNumber (attr : MsgAttr) : Bool :=
  attr.stringValue.any fun text => External.parsesF64 (trim text)

/-- **What SQS asks beyond SNS**: a name of a length from 1 to 256, and a number in a custom number
type. -/
def Conforms (attrs : MsgAttrs) : Prop :=
  ∀ (name : String) (attr : MsgAttr), attrs[name]? = some attr →
    isNamed name = true ∧ (startsWith attr.dataType "Number." = true → isNumber attr = true)

theorem beforeFirst_of_start {text : String} (word : String)
    (plain : (word.toList.all fun char => char != '.') = true)
    (start : startsWith text (word ++ ".") = true) : beforeFirst '.' text = word := by
  obtain ⟨rest, same⟩ := startsWith_iff.mp start
  rw [String.toList_append, List.append_assoc] at same
  rw [beforeFirst, ← same, List.takeWhile_append_of_pos (List.all_eq_true.mp plain)]
  show String.ofList (word.toList ++ []) = word
  rw [List.append_nil, String.ofList_toList]

theorem isValid_of_base {name base : String} {attr : MsgAttr}
    (based : beforeFirst '.' attr.dataType = base) :
    attr.isValid name = (isNamed name &&
      if base = "String" then attr.stringValue.isSome
      else if base = "Number" then isNumber attr
      else base = "Binary" && attr.binaryValue.isSome) := by
  subst based
  rfl

/-- An attribute that SNS takes is one that SQS takes, but for its name and its number. -/
theorem isValid_of_supported {name : String} {attr : MsgAttr} (supported : isSupported attr = true) :
    attr.isValid name = true ↔
      isNamed name = true ∧ (startsWith attr.dataType "Number." = true → isNumber attr = true) := by
  have number : startsWith attr.dataType "Number." = true →
      beforeFirst '.' attr.dataType = "Number" :=
    beforeFirst_of_start "Number" (by decide)
  have other : ∀ {base}, beforeFirst '.' attr.dataType = base → base ≠ "Number" →
      startsWith attr.dataType "Number." ≠ true :=
    fun based different start => different (based.symm.trans (number start))
  unfold isSupported at supported
  simp only at supported
  split at supported
  · rename_i kind
    have based : beforeFirst '.' attr.dataType = "String" := by
      rcases kind with kind | kind
      all_goals
        rw [kind]
        decide
    simp [isValid_of_base based, supported, other based (by decide)]
  · split at supported
    · rename_i kind
      have based : beforeFirst '.' attr.dataType = "Number" := by
        rw [kind]
        decide
      simp [isValid_of_base based, isNumber, supported]
    · split at supported
      · rename_i kind
        have based : beforeFirst '.' attr.dataType = "Binary" := by
          rw [kind]
          decide
        simp [isValid_of_base based, supported, other based (by decide)]
      · split at supported
        · rename_i start
          rcases start with start | start
          · have based := beforeFirst_of_start "String" (by decide) start
            simp [isValid_of_base based, supported, other based (by decide)]
          · simp [isValid_of_base (number start), start]
        · split at supported
          · rename_i start
            have based := beforeFirst_of_start "Binary" (by decide) start
            simp [isValid_of_base based, supported, other based (by decide)]
          · cases supported

theorem checkPublish_supported {request : PublishRequest} (done : checkPublish request = .ok ()) :
    ∀ entry ∈ request.attributes.toList, isSupported entry.2 = true := by
  obtain ⟨_, _, done⟩ := Lib.bind_ok done
  obtain ⟨_, _, done⟩ := Lib.bind_ok done
  obtain ⟨_, _, done⟩ := Lib.bind_ok done
  exact validateAttributes_supported done

theorem storable_iff_conforms {request : PublishRequest} (done : checkPublish request = .ok ()) :
    Storable request.attributes ↔ Conforms request.attributes := by
  have supported : ∀ (name : String) (attr : MsgAttr), request.attributes[name]? = some attr →
      isSupported attr = true := fun name attr found =>
    checkPublish_supported done (name, attr)
      (Std.ExtTreeMap.mem_toList_iff_getElem?_eq_some.mpr found)
  exact ⟨fun storable name attr found =>
      (isValid_of_supported (supported name attr found)).mp (storable name attr found),
    fun conforms name attr found =>
      (isValid_of_supported (supported name attr found)).mpr (conforms name attr found)⟩

/-! ### What a receive returns -/

/-- **A send with the input was accepted, and a receive of all attributes has returned the message
later.** -/
def ReadBack (history : List SqsEvent) (input : SendInput) (message : ReceivedMessage) : Prop :=
  ∃ past first middle receive later queue sent other options response delivery,
    history = past ++ first :: (middle ++ receive :: later) ∧
    Accepted first queue input sent delivery.row ∧ Asked receive other (.receive options) ∧
    receive.output = .ok response ∧ delivery ∈ response.deliveries ∧
    "All" ∈ options.messageAttributeNames ∧ message = delivery.message

theorem wantsMessageAttr_all {names : List String} (all : "All" ∈ names) (name : String) :
    wantsMessageAttr names name = true :=
  List.any_eq_true.mpr ⟨"All", all, by simp⟩

theorem readBack_attributes {history : List SqsEvent} {store : Store} {input : SendInput}
    {message : ReceivedMessage} (served : ServiceRun history store)
    (read : ReadBack history input message) :
    message.messageAttributes = attrsFromColumn (attrsColumn input.attributes) := by
  obtain ⟨past, first, middle, receive, later, queue, sent, other, options, response, delivery,
    rfl, accepted, asked, answered, listed, all, rfl⟩ := read
  obtain ⟨_, taken, runLater⟩ := served.around
  obtain ⟨runMiddle, takenReceive, _⟩ := runLater.around
  obtain ⟨original, stored, _, _, _, attributes, _⟩ := accepted_row taken accepted
  obtain ⟨_, row, draw, same, delivers⟩ :=
    (served_of_asked takenReceive asked answered).delivers listed
  cases same
  have content : row.messageAttributes = attrsColumn input.attributes := by
    rcases kept_or_gone runMiddle stored with ⟨kept, there, same⟩ | ⟨gone, _⟩
    · have equal := delivers.was.symm.trans there
      cases equal
      rw [same.messageAttributes, attributes]
    · have equal := delivers.was.symm.trans gone
      cases equal
  rw [delivers.message]
  show (attrsFromColumn row.messageAttributes).filter
    (fun name _ => wantsMessageAttr options.messageAttributeNames name) = _
  rw [content]
  apply Std.ExtTreeMap.ext_getElem?
  intro name
  rw [Std.ExtTreeMap.getElem?_filter']
  simp only [wantsMessageAttr_all all]
  cases (attrsFromColumn (attrsColumn input.attributes))[name]? with
  | none => rfl
  | some attr => rfl

/-! ### Sizes -/

theorem utf8_length (text : String) : (utf8 text).length = text.utf8ByteSize := by
  have bytes : (utf8 text).toByteArray = text.toByteArray := String.utf8Encode_toList
  have sizes := congrArg ByteArray.size bytes
  rwa [List.size_toByteArray] at sizes

theorem smallEntry_of_size {attrs : MsgAttrs} (small : attrsSize attrs < 2 ^ 32) :
    ∀ entry ∈ attrs.toList, SmallEntry entry := by
  intro entry member
  have part : entry.1.utf8ByteSize + entry.2.dataType.utf8ByteSize + entry.2.valueBytes.length ≤
      attrsSize attrs :=
    List.le_sum_of_mem (List.mem_map.mpr ⟨entry, member, rfl⟩)
  refine ⟨?_, ?_, by omega⟩
  · rw [utf8_length]
    omega
  · rw [utf8_length]
    omega

theorem checkPublish_size {request : PublishRequest} (done : checkPublish request = .ok ()) :
    attrsSize request.attributes < 2 ^ 32 := by
  obtain ⟨_, _, done⟩ := Lib.bind_ok done
  obtain ⟨_, short, _⟩ := Lib.bind_ok done
  have bounded := Lib.rejectIf_ok.mp short
  unfold maxMessageBytes at bounded
  omega

theorem checkMessage_attributes {queue : SqsQueue} {input : SendInput}
    (done : checkMessage queue input = .ok ()) : input.attributes.size ≤ maxAttributes ∧
      (attrsSize input.attributes : Int) ≤ queue.attrI64 "MaximumMessageSize" := by
  unfold checkMessage at done
  obtain ⟨_, _, done⟩ := Sqs.bind_ok done
  cases characters : input.body.toList.find? fun char => !validBodyChar char with
  | some bad =>
    rw [characters] at done
    cases done
  | none =>
    rw [characters] at done
    obtain ⟨_, few, done⟩ := Sqs.bind_ok done
    obtain ⟨_, short, _⟩ := Sqs.bind_ok done
    have count := Sqs.rejectIf_ok.mp few
    have size := Sqs.rejectIf_ok.mp short
    unfold messageSize at size
    push_cast at size
    omega

/-- What SQS checks of the attributes of a message that it accepts. -/
theorem accepted_checked {event : SqsEvent} {queue : SqsQueue} {input : SendInput} {sent : Sent}
    {id : Nat} (taken : event.Taken perform) (tidy : Tidy event.before)
    (accepted : Accepted event queue input sent id) :
    input.attributes.size ≤ maxAttributes ∧ attrsSize input.attributes < 2 ^ 32 := by
  obtain ⟨asked, answered, reported⟩ := accepted
  obtain ⟨⟨result, stored⟩, done, rest⟩ :=
    Sqs.bind_ok (served_of_asked taken asked answered).called
  obtain ⟨same, _⟩ := Prod.mk.inj (Except.ok.inj rest)
  cases same
  obtain ⟨name, _, found⟩ := asked
  have checked : ∃ delay, checkSend queue input = .ok delay := by
    cases sendTx_step done with
    | standard plain checked => exact ⟨_, checked⟩
    | duplicate => cases reported
    | fifo fifo checked => exact ⟨_, checked⟩
  obtain ⟨_, checked⟩ := checked
  obtain ⟨_, message, _⟩ := Sqs.bind_ok checked
  have range : (1024 : Int) ≤ queue.attrI64 "MaximumMessageSize" ∧
      queue.attrI64 "MaximumMessageSize" ≤ 1048576 :=
    attrI64_range (tidy.served found).2 "MaximumMessageSize" (by decide) (by decide)
      (fun _ _ _ => rfl) (by decide)
  obtain ⟨few, short⟩ := checkMessage_attributes message
  exact ⟨few, by omega⟩

/-! ### The attributes that are returned -/

/-- SNS or SQS has accepted the attributes. -/
def AcceptedAttributes (history : List SqsEvent) (attrs : MsgAttrs) : Prop :=
  (∃ request, checkPublish request = .ok () ∧ request.attributes = attrs) ∨
  ∃ event ∈ history, ∃ queue input sent id, Accepted event queue input sent id ∧
    input.attributes = attrs

theorem acceptedAttributes_size {history : List SqsEvent} {store : Store} {attrs : MsgAttrs}
    (served : ServiceRun history store) (accepted : AcceptedAttributes history attrs) :
    attrsSize attrs < 2 ^ 32 := by
  rcases accepted with ⟨request, done, rfl⟩ | ⟨event, member, queue, input, sent, id, done, rfl⟩
  · exact checkPublish_size done
  · obtain ⟨past, rest, rfl⟩ := List.append_of_mem member
    obtain ⟨before, taken, _⟩ := served.around
    exact (accepted_checked taken before.tidy done).2

theorem publish_checked {topic : SnsTopic} {request : PublishRequest} {out : Outgoing}
    (done : publish topic request = .ok out) :
    checkPublish request = .ok () ∧ out.attributes = request.attributes := by
  obtain ⟨_, checked, done⟩ := Lib.bind_ok done
  obtain ⟨_, _, done⟩ := Lib.bind_ok done
  obtain ⟨_, _, done⟩ := Lib.bind_ok done
  cases done
  exact ⟨checked, rfl⟩

/-- **Message attributes on their way through SQS.** A raw delivery's are returned if and only if
they conform, and there are at most ten; those of `SendMessage` are always returned. The encoding
under the digest tells apart what differs in more than values that a type does not use. -/
theorem attributes_survive {history : List SqsEvent} {store : Store}
    (served : ServiceRun history store) :
    (∀ topic request out queue uuid message, publish topic request = .ok out →
      ReadBack history (rawInput queue out uuid) message →
      (message.messageAttributes = request.attributes ↔ Conforms request.attributes) ∧
      (Conforms request.attributes → md5OfAttrs message.messageAttributes =
        External.md5Hex (attrsEncoding request.attributes))) ∧
    (∀ value input message, parseAttrs value = .ok input.attributes →
      ReadBack history input message → message.messageAttributes = input.attributes ∧
        md5OfAttrs message.messageAttributes =
          External.md5Hex (attrsEncoding input.attributes)) ∧
    (∀ event ∈ history, ∀ queue input sent id, Accepted event queue input sent id →
      input.attributes.size ≤ maxAttributes) ∧
    ∀ attrs others, AcceptedAttributes history attrs → AcceptedAttributes history others →
      Storable attrs → Storable others →
      (attrsEncoding attrs = attrsEncoding others ↔ usedEntries attrs = usedEntries others) := by
  refine ⟨?_, ?_, ?_, ?_⟩
  · intro topic request out queue uuid message published read
    obtain ⟨checked, same⟩ := publish_checked published
    have attributes : message.messageAttributes =
        attrsFromColumn (attrsColumn request.attributes) := by
      rw [readBack_attributes served read]
      show attrsFromColumn (attrsColumn out.attributes) = _
      rw [same]
    have survives : message.messageAttributes = request.attributes ↔
        Conforms request.attributes := by
      rw [attributes, attrsFromColumn_attrsColumn, storable_iff_conforms checked]
    exact ⟨survives, fun conforms => by rw [survives.mpr conforms, md5OfAttrs_eq]⟩
  · intro value input message parsed read
    have survives : message.messageAttributes = input.attributes := by
      rw [readBack_attributes served read, attrsFromColumn_attrsColumn]
      exact parseAttrs_storable parsed
    exact ⟨survives, by rw [survives, md5OfAttrs_eq]⟩
  · intro event member queue input sent id accepted
    obtain ⟨past, rest, rfl⟩ := List.append_of_mem member
    obtain ⟨before, taken, _⟩ := served.around
    exact (accepted_checked taken before.tidy accepted).1
  · intro attrs others accepted acceptedToo storable storableToo
    exact encoding_iff storable storableToo
      (smallEntry_of_size (acceptedAttributes_size served accepted))
      (smallEntry_of_size (acceptedAttributes_size served acceptedToo))

end External

/-! ### Lost attributes -/

section Sample

@[reducible]
local instance deliveryExternal : External := External.sample

def sampleTopic : SnsTopic where
  isFifo := false
  contentBasedDeduplication := false

/-- A message with an attribute of a custom type. -/
def sampleRequest (kind : String) : PublishRequest where
  message := "hello"
  subject := none
  messageStructure := none
  attributes := (∅ : MsgAttrs).insert "n" ⟨kind, some "abc", none⟩
  groupId := none
  dedupId := none

def sampleInput (kind : String) : SendInput where
  body := "hello"
  attributes := (sampleRequest kind).attributes

def sampleReceiveAll : Input where
  now := 0
  request := .on "orders" (.receive { max := 1, messageAttributeNames := ["All"] })

def deliveryInputs (kind : String) : List Input :=
  [sampleCreate 0, { now := 0, request := .on "orders" (.send (sampleInput kind)) },
    sampleReceiveAll]

def sampleSend (kind : String) : SqsEvent :=
  Event.of perform (perform Store.empty (sampleCreate 0)).2
    { now := 0, request := .on "orders" (.send (sampleInput kind)) }

def sampleReturn (kind : String) : SqsEvent :=
  Event.of perform (sampleSend kind).after sampleReceiveAll

/-- The messages that the request returned. -/
def returnedBy (event : SqsEvent) : List Delivery :=
  match event.output with
  | .ok response => response.deliveries
  | .error _ => []

theorem delivery_served (kind : String) :
    ServiceRun (Run.trace perform Store.empty (deliveryInputs kind))
      (Run.final perform Store.empty (deliveryInputs kind)) :=
  ServiceRun.of_inputs (deliveryInputs kind) (by simp [deliveryInputs, sampleCreate,
    sampleReceiveAll])

def sampleOut (kind : String) : Outgoing where
  bodies := (∅ : BTreeMap String).insert "default" "hello"
  attributes := (sampleRequest kind).attributes
  groupId := none
  dedupId := none

theorem sample_publish {kind : String} (checked : checkPublish (sampleRequest kind) = .ok ()) :
    publish sampleTopic (sampleRequest kind) = .ok (sampleOut kind) := by
  rw [publish, checked]
  rfl

theorem sample_readBack (kind : String) (accepted : rowAccepted (sampleSend kind) = some 1)
    (fifo : (getQueue (sampleSend kind).before "orders").toOption.map SqsQueue.isFifo = some false)
    (found : (getQueue (sampleReturn kind).before "orders").toOption.isSome = true)
    (returned : (returnedBy (sampleReturn kind)).map Delivery.row = [1]) :
    ∃ queue delivery, returnedBy (sampleReturn kind) = [delivery] ∧
      ReadBack (Run.trace perform Store.empty (deliveryInputs kind))
        (rawInput queue (sampleOut kind) "") delivery.message := by
  obtain ⟨queue, queueFound, plain⟩ := Option.map_eq_some_iff.mp fifo
  obtain ⟨other, otherFound⟩ := Option.isSome_iff_exists.mp found
  obtain ⟨sent, output, row⟩ := rowAccepted_some accepted
  have same : rawInput queue (sampleOut kind) "" = sampleInput kind := by
    rw [rawInput, plain]
    rfl
  obtain ⟨delivery, rest, listed, rowOne, nothing⟩ := List.map_eq_cons_iff.mp returned
  rw [List.map_eq_nil_iff] at nothing
  subst nothing
  obtain ⟨response, answered⟩ : ∃ response, (sampleReturn kind).output = .ok response := by
    unfold returnedBy at listed
    split at listed
    · rename_i response answered
      exact ⟨response, answered⟩
    · cases listed
  refine ⟨queue, delivery, listed, [_], sampleSend kind, [], sampleReturn kind, [], queue, sent,
    other, _, response, delivery, rfl, ?_, ⟨"orders", rfl, ok_of_toOption otherFound⟩, answered,
    ?_, List.mem_singleton_self _, rfl⟩
  · rw [same, rowOne]
    exact ⟨⟨"orders", rfl, ok_of_toOption queueFound⟩, output, row⟩
  · rw [returnedBy, answered] at listed
    simp only at listed
    rw [listed]
    exact List.mem_singleton_self _

/-- A custom text is returned. -/
theorem attributes_survive_sample : ∃ message : ReceivedMessage,
    message.messageAttributes = (sampleRequest "String.x").attributes := by
  obtain ⟨queue, delivery, _, read⟩ := sample_readBack "String.x" (by decide)
    (by decide) (by decide) (by decide)
  refine ⟨delivery.message, (((attributes_survive (delivery_served _)).1 sampleTopic _ _ queue ""
    _ (sample_publish (by decide)) read).1).mpr ?_⟩
  intro name attr found
  have entry := Std.ExtTreeMap.mem_toList_iff_getElem?_eq_some.mpr found
  have all : ∀ entry ∈ (sampleRequest "String.x").attributes.toList, isNamed entry.1 = true ∧
      startsWith entry.2.dataType "Number." = false := by decide
  obtain ⟨named, text⟩ := all _ entry
  exact ⟨named, fun number => by rw [text] at number; cases number⟩

/-- **A custom number that is not a number**: SNS takes it, and no attribute is returned. -/
theorem attributes_lost : ∃ history store topic request out queue uuid message,
    ServiceRun history store ∧ publish topic request = .ok out ∧
    ReadBack history (rawInput queue out uuid) message ∧
    message.messageAttributes ≠ request.attributes := by
  obtain ⟨queue, delivery, listed, read⟩ := sample_readBack "Number.x" (by decide)
    (by decide) (by decide) (by decide)
  refine ⟨_, _, sampleTopic, sampleRequest "Number.x", _, queue, "", delivery.message,
    delivery_served _, sample_publish (by decide), read, fun same => ?_⟩
  have empty : ∀ delivery ∈ returnedBy (sampleReturn "Number.x"),
      delivery.message.messageAttributes.toList = [] := by decide
  have some : (sampleRequest "Number.x").attributes.toList ≠ [] := by decide
  rw [← same] at some
  exact some (empty delivery (by rw [listed]; exact List.mem_singleton_self _))

end Sample

end CloudTwin.Sns
