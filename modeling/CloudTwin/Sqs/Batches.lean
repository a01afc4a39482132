/-
**Batches of the SQS service** (`SendMessageBatch`, `DeleteMessageBatch` and
`ChangeMessageVisibilityBatch` of `dispatch` in `aws/sqs/handlers.rs`).

A batch reads its queue, checks its entries as a whole (`batch_entries`, and for a send also
`check_batch_size`), and then serves the entries one after the other, each as a request of its own
with its own database calls. Between two calls any other batch can take its turn.

* `Batch`, `BatchStage` and `serve` — a batch, where it stands, and its next database call.
* `Reported` — the report after the entries before an index, from what these entries got.
* `batches_are_clients` — a run of any number of batches is a run of clients, one for each entry;
  the entries of a batch are served in order, and its answer names each of them once, with the
  result its client got.
-/

import CloudTwin.Lib.Simulation
import CloudTwin.Sqs.Clients

namespace CloudTwin.Sqs

open Lib Lib.Text

set_option linter.unusedSectionVars false

namespace SqsError

def emptyBatch : SqsError :=
  sender "EmptyBatchRequest" "AWS.SimpleQueueService.EmptyBatchRequest"
    "There should be at least one SendMessageBatchRequestEntry in the request."

def tooManyEntries (count : Nat) : SqsError :=
  sender "TooManyEntriesInBatchRequest" "AWS.SimpleQueueService.TooManyEntriesInBatchRequest"
    ("Maximum number of entries per request are 10. You have sent " ++ toString count ++ ".")

def idsNotDistinct (id : String) : SqsError :=
  sender "BatchEntryIdsNotDistinct" "AWS.SimpleQueueService.BatchEntryIdsNotDistinct"
    ("Id " ++ id ++ " repeated.")

def invalidBatchEntryId (id : String) : SqsError :=
  sender "InvalidBatchEntryId" "AWS.SimpleQueueService.InvalidBatchEntryId"
    ("A batch entry id can only contain alphanumeric characters, hyphens and underscores. " ++
      "It can be at most 80 letters long. Id: " ++ id)

def batchTooLong (limit : Int) : SqsError :=
  sender "BatchRequestTooLong" "AWS.SimpleQueueService.BatchRequestTooLong"
    ("Batch requests cannot be longer than " ++ toString limit ++ " bytes.")

end SqsError

/-! ### Request fields -/

def strField (body : Json) (key : String) : Option String :=
  (body.get key).bind Json.asStr

def required (body : Json) (key : String) : Result String :=
  match (strField body key).filter fun text => !text.isEmpty with
  | some text => .ok text
  | none => .error (.missingParameter key)

def invalidField (key : String) : SqsError :=
  .invalidParameter ("Invalid value for the parameter " ++ key ++ ".")

/-- A value that is there and is an `i64`, or the error for it. -/
def someInt (key : String) (value : Option Int) : Result (Option Int) :=
  match value with
  | some value => .ok (some value)
  | none => .error (invalidField key)

def intField (body : Json) (key : String) : Result (Option Int) :=
  match body.get key with
  | none => .ok none
  | some .null => .ok none
  | some (.num value) => someInt key (Json.num value).asI64
  | some (.str text) => someInt key (parseI64 (trim text))
  | some _ => .error (invalidField key)

/-- `Value::as_array`, of a member that may be missing. -/
def arrayField (body : Json) (key : String) : List Json :=
  match body.get key with
  | some (.arr items) => items
  | _ => []

/-- `str_field(e, "Id").unwrap_or("")`. -/
def entryId (entry : Json) : String :=
  (strField entry "Id").getD ""

/-- `str_field(e, "ReceiptHandle").unwrap_or("")`. -/
def entryHandle (entry : Json) : String :=
  (strField entry "ReceiptHandle").getD ""

/-! ### The entries of a batch -/

def validBatchId (id : String) : Bool :=
  !id.isEmpty && decide (id.utf8ByteSize ≤ 80) &&
    id.toList.all fun char => char.isAlphanum || char == '-' || char == '_'

/-- The loop of `batch_entries` over the ids, with the ids it has seen. -/
def checkIds : List Json → List String → Result Unit
  | [], _ => .ok ()
  | entry :: rest, seen =>
    if validBatchId (entryId entry) = false then .error (.invalidBatchEntryId (entryId entry))
    else if entryId entry ∈ seen then .error (.idsNotDistinct (entryId entry))
    else checkIds rest (entryId entry :: seen)

def batchEntries (body : Json) : Result (List Json) := do
  let entries := arrayField body "Entries"
  rejectIf (entries.isEmpty) .emptyBatch
  rejectIf (entries.length > 10) (.tooManyEntries entries.length)
  checkIds entries []
  return entries

inductive BatchKind where
  | sendMessageBatch
  | deleteMessageBatch
  | changeMessageVisibilityBatch
  deriving DecidableEq

/-- A batch request. -/
structure Batch where
  kind : BatchKind
  body : Json

namespace Batch

/-- The queue of the batch, once `required` has let it through. -/
def url (batch : Batch) : String :=
  (strField batch.body "QueueUrl").getD ""

def entries (batch : Batch) : List Json :=
  arrayField batch.body "Entries"

def entry (batch : Batch) (index : Nat) : Json :=
  (batch.entries[index]?).getD .null

end Batch

/-- What `batch_entries` lets through. -/
structure Admitted (batch : Batch) : Prop where
  nonempty : batch.entries ≠ []
  few : batch.entries.length ≤ 10
  valid : ∀ entry ∈ batch.entries, validBatchId (entryId entry) = true
  distinct : (batch.entries.map entryId).Nodup

theorem checkIds_ok {entries : List Json} {seen : List String} {value : Unit}
    (checked : checkIds entries seen = .ok value) :
    (∀ entry ∈ entries, validBatchId (entryId entry) = true ∧ entryId entry ∉ seen) ∧
      (entries.map entryId).Nodup := by
  induction entries generalizing seen with
  | nil => exact ⟨fun _ member => absurd member List.not_mem_nil, List.nodup_nil⟩
  | cons entry rest ih =>
    unfold checkIds at checked
    split at checked
    · cases checked
    · rename_i valid
      split at checked
      · cases checked
      · rename_i fresh
        obtain ⟨later, distinct⟩ := ih checked
        refine ⟨fun other member => ?_, ?_⟩
        · rcases List.mem_cons.mp member with rfl | after
          · exact ⟨by simpa using valid, fresh⟩
          · obtain ⟨good, unseen⟩ := later other after
            exact ⟨good, fun old => unseen (List.mem_cons_of_mem _ old)⟩
        · rw [List.map_cons, List.nodup_cons]
          refine ⟨fun again => ?_, distinct⟩
          obtain ⟨other, member, same⟩ := List.mem_map.mp again
          exact (later other member).2 (same ▸ List.mem_cons_self)

theorem batchEntries_ok {batch : Batch} {entries : List Json}
    (checked : batchEntries batch.body = .ok entries) : Admitted batch := by
  unfold batchEntries at checked
  obtain ⟨_, nonempty, rest⟩ := bind_ok checked
  obtain ⟨_, few, rest⟩ := bind_ok rest
  obtain ⟨_, ids, _⟩ := bind_ok rest
  obtain ⟨valid, distinct⟩ := checkIds_ok ids
  refine ⟨fun none => rejectIf_ok.mp nonempty ?_, ?_, fun entry member => (valid entry member).1,
    distinct⟩
  · exact List.isEmpty_iff.mpr none
  · exact Nat.le_of_not_gt (rejectIf_ok.mp few)

/-! ### The answer to a batch -/

/-- `ok_entries` and `failed`. -/
structure Report where
  successful : List (String × Response) := []
  failed : List (String × SqsError) := []

def Report.push (report : Report) (id : String) : Result Response → Report
  | .ok response => { report with successful := report.successful ++ [(id, response)] }
  | .error error => { report with failed := report.failed ++ [(id, error)] }

/-- Whether the report gives the id this result. -/
def Report.Gives (report : Report) (id : String) : Result Response → Prop
  | .ok response => (id, response) ∈ report.successful
  | .error error => (id, error) ∈ report.failed

def failedEntry (id : String) (error : SqsError) : Json :=
  .obj [("Code", .str error.queryCode), ("Id", .str id), ("Message", .str error.message),
    ("SenderFault", .bool error.senderFault)]

def optionalMember (name : String) (value : Option String) : List (String × Json) :=
  match value with
  | some text => [(name, .str text)]
  | none => []

/-- `send_result`, the members in key order. -/
def sendResult (outcome : SendOutcome) : List (String × Json) :=
  optionalMember "MD5OfMessageAttributes" outcome.md5Attrs ++
    [("MD5OfMessageBody", .str outcome.md5Body)] ++
    optionalMember "MD5OfMessageSystemAttributes" outcome.md5SystemAttrs ++
    [("MessageId", .str outcome.messageId)] ++
    optionalMember "SequenceNumber" outcome.sequenceNumber

def successfulEntry (id : String) : Response → Json
  | .sent sent => .obj (("Id", .str id) :: sendResult sent.outcome)
  | _ => .obj [("Id", .str id)]

def Report.toJson (report : Report) : Json :=
  .obj [("Failed", .arr (report.failed.map fun entry => failedEntry entry.1 entry.2)),
    ("Successful", .arr (report.successful.map fun entry => successfulEntry entry.1 entry.2))]

/-- The ids of the entries that an answer lists under a name. -/
def idsUnder (name : String) (answer : Json) : List String :=
  (arrayField answer name).map entryId

theorem entryId_failedEntry (id : String) (error : SqsError) :
    entryId (failedEntry id error) = id := by
  simp [entryId, strField, failedEntry, Json.get, List.lookup, Json.asStr]

theorem entryId_successfulEntry (id : String) (response : Response) :
    entryId (successfulEntry id response) = id := by
  cases response <;> simp [entryId, strField, successfulEntry, Json.get, List.lookup, Json.asStr]

theorem idsUnder_failed (report : Report) :
    idsUnder "Failed" report.toJson = report.failed.map Prod.fst := by
  simp [idsUnder, arrayField, Report.toJson, Json.get, List.lookup, entryId_failedEntry]

theorem idsUnder_successful (report : Report) :
    idsUnder "Successful" report.toJson = report.successful.map Prod.fst := by
  simp [idsUnder, arrayField, Report.toJson, Json.get, List.lookup, entryId_successfulEntry]

theorem Report.push_gives (report : Report) (id : String) (result : Result Response) :
    (report.push id result).Gives id result := by
  cases result with
  | ok response => exact List.mem_append_right _ List.mem_cons_self
  | error error => exact List.mem_append_right _ List.mem_cons_self

theorem Report.Gives.push {report : Report} {id : String} {result : Result Response}
    (gives : report.Gives id result) (other : String) (latest : Result Response) :
    (report.push other latest).Gives id result := by
  cases result with
  | ok response =>
    cases latest with
    | ok _ => exact List.mem_append_left _ gives
    | error _ => exact gives
  | error error =>
    cases latest with
    | ok _ => exact gives
    | error _ => exact List.mem_append_left _ gives

section External

variable [External]

/-! ### What an entry asks -/

def sendInput (entry : Json) : Result SendInput := do
  let body ← match strField entry "MessageBody" with
    | some body => .ok body
    | none => .error (.missingParameter "MessageBody")
  let delaySeconds ← intField entry "DelaySeconds"
  let attributes ←
    (parseAttrs (entry.get "MessageAttributes")).mapError SqsError.invalidParameter
  let systemAttributes ←
    (parseAttrs (entry.get "MessageSystemAttributes")).mapError SqsError.invalidParameter
  return {
    body, delaySeconds, attributes, systemAttributes
    groupId := strField entry "MessageGroupId"
    dedupId := strField entry "MessageDeduplicationId" }

/-- The visibility timeout of an entry, which has no default. -/
def entryTimeout (entry : Json) : Result Int := do
  match ← intField entry "VisibilityTimeout" with
  | some timeout => return timeout
  | none => throw (.missingParameter "VisibilityTimeout")

/-- What the loop over the entries asks of the queue for one of them. -/
def BatchKind.operation (kind : BatchKind) (entry : Json) : Result Operation :=
  match kind with
  | .sendMessageBatch => do
    let input ← sendInput entry
    return .send input
  | .deleteMessageBatch => .ok (.deleteMessage (entryHandle entry))
  | .changeMessageVisibilityBatch => do
    let timeout ← entryTimeout entry
    return .changeVisibility (entryHandle entry) timeout

namespace Batch

def operation (batch : Batch) (index : Nat) : Result Operation :=
  batch.kind.operation (batch.entry index)

/-- The request of an entry. An entry that is refused before it asks for anything stands for a
client that never takes a turn; what it would ask is nothing the batch does. -/
def request (batch : Batch) (index : Nat) : Request :=
  match batch.operation index with
  | .ok operation => .on batch.url operation
  | .error _ => .on batch.url (.getQueueAttributes [])

/-- The bytes of the messages that are read without an error. -/
def total (batch : Batch) : Nat :=
  (batch.entries.filterMap fun entry => (sendInput entry).toOption.map messageSize).sum

end Batch

/-! ### The calls of a batch -/

/-- Where a batch stands. -/
inductive BatchStage where
  | asked (batch : Batch)
  | opened (batch : Batch)
  | serving (batch : Batch) (index : Nat) (report : Report) (current : Stage)
  | answered (result : Result Report)

/-- The read of the queue, and the checks that follow it. -/
@[irreducible]
def openBatch (store : Store) (batch : Batch) : Result Unit := do
  let url ← required batch.body "QueueUrl"
  let _ ← getQueue store url
  let _ ← batchEntries batch.body
  return ()

/-- `SqsService::check_batch_size`. -/
@[irreducible]
def checkBatchSize (store : Store) (url : String) (total : Nat) : Result Unit := do
  let queue ← getQueue store url
  let limit := queue.attrI64 "MaximumMessageSize"
  rejectIf ((total : Int) > limit) (.batchTooLong limit)

/-- The turn comes to the entry at an index, or the loop has ended. -/
def BatchStage.upTo (batch : Batch) (index : Nat) (report : Report) : BatchStage :=
  if index < batch.entries.length then .serving batch index report (.asked (batch.request index))
  else .answered (.ok report)

/-- After a call of the entry at an index. -/
def BatchStage.afterCall (batch : Batch) (index : Nat) (report : Report) :
    Stage → BatchStage
  | .finished result => .upTo batch (index + 1) (report.push (entryId (batch.entry index)) result)
  | current => .serving batch index report current

/-- After the read of the queue: the messages of a send are measured first. -/
def BatchStage.afterOpen (batch : Batch) : Result Unit → BatchStage
  | .ok _ => if batch.kind = .sendMessageBatch then .opened batch else .upTo batch 0 {}
  | .error error => .answered (.error error)

/-- After `check_batch_size`. -/
def BatchStage.afterSize (batch : Batch) : Result Unit → BatchStage
  | .ok _ => .upTo batch 0 {}
  | .error error => .answered (.error error)

/-- The next call of the entry at an index: none, when it is refused before it asks for anything. -/
def serveEntry (store : Store) (batch : Batch) (index : Nat) (report : Report) (current : Stage)
    (move : Move) : Store × BatchStage :=
  match batch.operation index with
  | .ok _ =>
    let called := advance store current move
    (called.2.1, .afterCall batch index report called.2.2)
  | .error error => (store, .afterCall batch index report (.finished (.error error)))

/-- **The next call of a batch.** -/
def nextCall (store : Store) (stage : BatchStage) (move : Move) : Store × BatchStage :=
  match stage with
  | .asked batch => (store, .afterOpen batch (openBatch store batch))
  | .opened batch => (store, .afterSize batch (checkBatchSize store batch.url batch.total))
  | .serving batch index report current => serveEntry store batch index report current move
  | .answered result => (store, .answered result)

def BatchStage.answer : BatchStage → Option (Result Json)
  | .answered result => some (result.map Report.toJson)
  | _ => none

/-- A call of a batch, with the answer once there is one. -/
def serve (store : Store) (stage : BatchStage) (move : Move) :
    Option (Result Json) × Store × BatchStage :=
  let called := nextCall store stage move
  (called.2.answer, called)

/-- The store and the batches before their first calls. -/
def batchSystem (store : Store) (batches : Nat → Batch) : System Store BatchStage where
  shared := store
  client := fun client => .asked (batches client)

/-- The request of every entry of every batch: the clients of a batch are a block. -/
def entryRequests (batches : Nat → Batch) (client : Nat) : Request :=
  (batches client.unpair.1).request client.unpair.2

/-- **A run of batches**, their calls in any order. -/
abbrev BatchRun (store : Store) (batches : Nat → Batch)
    (history : List (Event (System Store BatchStage) (Nat × Move) (Option (Result Json))))
    (stop : System Store BatchStage) : Prop :=
  Run (System.step serve) (batchSystem store batches) history stop

/-! ### What the report says of the clients -/

/-- The result of an entry: its client's, or the error that kept it from asking. -/
inductive Outcome (batch : Batch) (client : Nat → Stage) (index : Nat) : Result Response → Prop
  | refused {error : SqsError} (malformed : batch.operation index = .error error)
      (untouched : client index = .asked (batch.request index)) :
      Outcome batch client index (.error error)
  | finished {operation : Operation} {result : Result Response}
      (asks : batch.operation index = .ok operation) (done : client index = .finished result) :
      Outcome batch client index result

/-- **The report after the entries before an index.** -/
inductive Reported (batch : Batch) (client : Nat → Stage) : Nat → Report → Prop
  | start : Reported batch client 0 {}
  | entry {index : Nat} {report : Report} {result : Result Response}
      (past : Reported batch client index report) (outcome : Outcome batch client index result) :
      Reported batch client (index + 1) (report.push (entryId (batch.entry index)) result)

/-- A client that has not begun. -/
def Untouched (batch : Batch) (client : Nat → Stage) (index : Nat) : Prop :=
  client index = .asked (batch.request index)

/-- **The clients a batch stands for**: those before its index are done and reported, the one at its
index is where the batch is, and those after it have not begun. -/
inductive StandsFor (batch : Batch) (client : Nat → Stage) : BatchStage → Prop
  | asked (idle : ∀ index, Untouched batch client index) : StandsFor batch client (.asked batch)
  | opened (accepted : Admitted batch) (idle : ∀ index, Untouched batch client index) :
      StandsFor batch client (.opened batch)
  | serving {index : Nat} {report : Report} (accepted : Admitted batch)
      (here : index < batch.entries.length) (past : Reported batch client index report)
      (silent : ∀ error, batch.operation index = .error error → Untouched batch client index)
      (later : ∀ next, index < next → Untouched batch client next) :
      StandsFor batch client (.serving batch index report (client index))
  | refused {error : SqsError} (idle : ∀ index, Untouched batch client index) :
      StandsFor batch client (.answered (.error error))
  | reported {report : Report} (accepted : Admitted batch)
      (past : Reported batch client batch.entries.length report)
      (later : ∀ next, batch.entries.length ≤ next → Untouched batch client next) :
      StandsFor batch client (.answered (.ok report))

variable {batch : Batch} {client changed : Nat → Stage} {index : Nat} {report : Report}

theorem Outcome.congr {result : Result Response} (outcome : Outcome batch client index result)
    (same : changed index = client index) : Outcome batch changed index result := by
  cases outcome with
  | refused malformed untouched => exact .refused malformed (same.trans untouched)
  | finished asks done => exact .finished asks (same.trans done)

/-- The report speaks of the clients before the index only. -/
theorem Reported.congr (past : Reported batch client index report)
    (same : ∀ earlier, earlier < index → changed earlier = client earlier) :
    Reported batch changed index report := by
  induction past with
  | start => exact .start
  | @entry index _ _ _ outcome ih =>
    exact .entry (ih fun earlier before => same earlier (Nat.lt_succ_of_lt before))
      (outcome.congr (same index (Nat.lt_succ_self index)))

theorem Reported.outcome (past : Reported batch client index report) :
    ∀ earlier, earlier < index → ∃ result, Outcome batch client earlier result ∧
      report.Gives (entryId (batch.entry earlier)) result := by
  induction past with
  | start => exact fun earlier before => absurd before (Nat.not_lt_zero earlier)
  | @entry index report result _ outcome ih =>
    intro earlier before
    rcases Nat.lt_succ_iff_lt_or_eq.mp before with older | rfl
    · obtain ⟨other, was, gives⟩ := ih earlier older
      exact ⟨other, was, gives.push _ _⟩
    · exact ⟨result, outcome, report.push_gives _ _⟩

/-- The ids of the entries before an index, one more. -/
theorem take_ids_succ (here : index < batch.entries.length) :
    (batch.entries.take (index + 1)).map entryId =
      (batch.entries.take index).map entryId ++ [entryId (batch.entry index)] := by
  rw [List.take_add_one, List.map_append, Batch.entry, List.getElem?_eq_getElem here]
  rfl

/-- The report names the entries before the index, each once and in their order. -/
theorem Reported.ids (past : Reported batch client index report)
    (inside : index ≤ batch.entries.length) :
    (report.successful.map Prod.fst ++ report.failed.map Prod.fst).Perm
        ((batch.entries.take index).map entryId) ∧
      (report.successful.map Prod.fst).Sublist ((batch.entries.take index).map entryId) ∧
      (report.failed.map Prod.fst).Sublist ((batch.entries.take index).map entryId) := by
  induction past with
  | start => exact ⟨List.Perm.nil, List.Sublist.slnil, List.Sublist.slnil⟩
  | @entry index report result _ _ ih =>
    obtain ⟨once, successes, failures⟩ := ih (Nat.le_of_succ_le inside)
    rw [take_ids_succ inside]
    cases result with
    | ok response =>
      refine ⟨?_, ?_, failures.trans (List.sublist_append_left _ _)⟩
      · have moved : (report.successful.map Prod.fst ++ [entryId (batch.entry index)] ++
            report.failed.map Prod.fst).Perm
            ((report.successful.map Prod.fst ++ report.failed.map Prod.fst) ++
              [entryId (batch.entry index)]) := by
          rw [List.append_assoc, List.append_assoc]
          exact List.Perm.append_left _ List.perm_append_comm
        have step := moved.trans (once.append_right [entryId (batch.entry index)])
        simpa [Report.push] using step
      · simpa [Report.push] using successes.append (List.Sublist.refl [entryId (batch.entry index)])
    | error error =>
      refine ⟨?_, successes.trans (List.sublist_append_left _ _), ?_⟩
      · simpa [Report.push] using once.append_right [entryId (batch.entry index)]
      · simpa [Report.push] using failures.append (List.Sublist.refl [entryId (batch.entry index)])

/-! ### A call of a batch is a call of a client, or none -/

/-- The turn moves on to an index whose clients have not begun. -/
theorem StandsFor.upTo (accepted : Admitted batch) (inside : index ≤ batch.entries.length)
    (past : Reported batch client index report)
    (later : ∀ next, index ≤ next → Untouched batch client next) :
    StandsFor batch client (.upTo batch index report) := by
  unfold BatchStage.upTo
  split
  · rename_i here
    rw [← later index (Nat.le_refl index)]
    exact .serving accepted here past (fun _ _ => later index (Nat.le_refl index))
      fun next after => later next (Nat.le_of_lt after)
  · rename_i ended
    obtain rfl : index = batch.entries.length := Nat.le_antisymm inside (Nat.le_of_not_lt ended)
    exact .reported accepted past later

theorem StandsFor.begin (accepted : Admitted batch) (idle : ∀ index, Untouched batch client index) :
    StandsFor batch client (.upTo batch 0 {}) :=
  .upTo accepted (Nat.zero_le _) .start fun next _ => idle next

/-- The client at the index has made a call. -/
theorem StandsFor.afterCall {operation : Operation} (accepted : Admitted batch)
    (here : index < batch.entries.length) (asks : batch.operation index = .ok operation)
    (past : Reported batch client index report)
    (later : ∀ next, index < next → Untouched batch client next) :
    StandsFor batch client (.afterCall batch index report (client index)) := by
  unfold BatchStage.afterCall
  split
  · rename_i result done
    exact .upTo accepted here (past.entry (.finished asks done)) fun next after => later next after
  · refine .serving accepted here past (fun error malformed => ?_) later
    rw [asks] at malformed
    cases malformed

theorem openBatch_ok {store : Store} {value : Unit} (opened : openBatch store batch = .ok value) :
    Admitted batch := by
  unfold openBatch at opened
  obtain ⟨_, _, rest⟩ := bind_ok opened
  obtain ⟨_, _, rest⟩ := bind_ok rest
  obtain ⟨_, checked, _⟩ := bind_ok rest
  exact batchEntries_ok checked

theorem StandsFor.afterOpen {result : Result Unit} (accepted : result = .ok () → Admitted batch)
    (idle : ∀ index, Untouched batch client index) :
    StandsFor batch client (.afterOpen batch result) := by
  cases result with
  | error error => exact .refused idle
  | ok value =>
    simp only [BatchStage.afterOpen]
    split
    · exact .opened (accepted rfl) idle
    · exact .begin (accepted rfl) idle

theorem StandsFor.afterSize (result : Result Unit) (accepted : Admitted batch)
    (idle : ∀ index, Untouched batch client index) :
    StandsFor batch client (.afterSize batch result) := by
  cases result with
  | error error => exact .refused idle
  | ok value => exact .begin accepted idle

theorem nextCall_asked (store : Store) (batch : Batch) (move : Move) :
    nextCall store (.asked batch) move = (store, .afterOpen batch (openBatch store batch)) := rfl

theorem nextCall_opened (store : Store) (batch : Batch) (move : Move) :
    nextCall store (.opened batch) move =
      (store, .afterSize batch (checkBatchSize store batch.url batch.total)) := rfl

theorem nextCall_serving (store : Store) (batch : Batch) (index : Nat) (report : Report)
    (current : Stage) (move : Move) :
    nextCall store (.serving batch index report current) move =
      serveEntry store batch index report current move := rfl

theorem nextCall_answered (store : Store) (result : Result Report) (move : Move) :
    nextCall store (.answered result) move = (store, .answered result) := rfl

theorem serveEntry_refused (store : Store) (report : Report) (current : Stage) (move : Move)
    {error : SqsError} (malformed : batch.operation index = .error error) :
    serveEntry store batch index report current move =
      (store, .afterCall batch index report (.finished (.error error))) := by
  unfold serveEntry
  rw [malformed]

theorem serveEntry_asks (store : Store) (report : Report) (current : Stage) (move : Move)
    {operation : Operation} (asks : batch.operation index = .ok operation) :
    serveEntry store batch index report current move =
      ((advance store current move).2.1,
        .afterCall batch index report (advance store current move).2.2) := by
  unfold serveEntry
  rw [asks]

/-- **The step lemma**: a call of a batch leaves the store, or is a call of one of its clients. -/
theorem StandsFor.next {stage : BatchStage} (stands : StandsFor batch client stage) (store : Store)
    (move : Move) :
    (nextCall store stage move).1 = store ∧ StandsFor batch client (nextCall store stage move).2 ∨
    ∃ index call, (advance store (client index) call).2.1 = (nextCall store stage move).1 ∧
      StandsFor batch (Function.update client index (advance store (client index) call).2.2)
        (nextCall store stage move).2 := by
  induction stands with
  | asked idle =>
    rw [nextCall_asked]
    exact Or.inl ⟨rfl, .afterOpen openBatch_ok idle⟩
  | opened accepted idle =>
    rw [nextCall_opened]
    exact Or.inl ⟨rfl, .afterSize (checkBatchSize store batch.url batch.total) accepted idle⟩
  | @serving index report accepted here past silent later =>
    rw [nextCall_serving]
    cases asks : batch.operation index with
    | error error =>
      rw [serveEntry_refused store report (client index) move asks]
      exact Or.inl ⟨rfl, .upTo accepted here (past.entry (.refused asks (silent error asks)))
        fun next after => later next after⟩
    | ok operation =>
      rw [serveEntry_asks store report (client index) move asks]
      refine Or.inr ⟨index, move, rfl, ?_⟩
      -- only the client at the index has changed
      have kept : ∀ other, other ≠ index → Function.update client index
          (advance store (client index) move).2.2 other = client other :=
        fun other different => Function.update_of_ne different _ _
      have after := StandsFor.afterCall accepted here asks
        (past.congr fun earlier before => kept earlier (Nat.ne_of_lt before))
        fun next beyond => (kept next (Nat.ne_of_gt beyond)).trans (later next beyond)
      rwa [Function.update_self] at after
  | refused idle =>
    rw [nextCall_answered]
    exact Or.inl ⟨rfl, .refused idle⟩
  | reported accepted past later =>
    rw [nextCall_answered]
    exact Or.inl ⟨rfl, .reported accepted past later⟩

/-! ### Runs of batches -/

/-- What the answer to a batch says of the clients of its entries. -/
structure Told (batch : Batch) (client : Nat → Stage) (report : Report) : Prop where
  accepted : Admitted batch
  once : (idsUnder "Successful" report.toJson ++ idsUnder "Failed" report.toJson).Perm
    (batch.entries.map entryId)
  inOrder : (idsUnder "Successful" report.toJson).Sublist (batch.entries.map entryId) ∧
    (idsUnder "Failed" report.toJson).Sublist (batch.entries.map entryId)
  results : ∀ index, index < batch.entries.length → ∃ result,
    Outcome batch client index result ∧ report.Gives (entryId (batch.entry index)) result

/-- **Batches as clients**: the store is the one the clients leave; an answered batch tells what its
clients got; of a refused batch no client has begun; and no client has begun before all the entries
in front of it were served. -/
structure Played (batches : Nat → Batch) (stop : System Store BatchStage)
    (final : System Store Stage) : Prop where
  store : final.shared = stop.shared
  told : ∀ k report, stop.client k = .answered (.ok report) →
    Told (batches k) (final.block k) report
  refused : ∀ k error, stop.client k = .answered (.error error) →
    ∀ index, Untouched (batches k) (final.block k) index
  serial : ∀ k earlier later, earlier < later → ¬ Untouched (batches k) (final.block k) later →
    ∃ result, Outcome (batches k) (final.block k) earlier result

theorem Reported.told (accepted : Admitted batch)
    (past : Reported batch client batch.entries.length report) : Told batch client report := by
  obtain ⟨once, successes, failures⟩ := past.ids (Nat.le_refl _)
  rw [List.take_length] at once successes failures
  refine ⟨accepted, ?_, ?_, past.outcome⟩
  · rw [idsUnder_successful, idsUnder_failed]
    exact once
  · rw [idsUnder_successful, idsUnder_failed]
    exact ⟨successes, failures⟩

theorem StandsFor.serial {stage : BatchStage} (stands : StandsFor batch client stage)
    {earlier later : Nat} (before : earlier < later) (begun : ¬ Untouched batch client later) :
    ∃ result, Outcome batch client earlier result := by
  have upTo : ∀ {index report}, Reported batch client index report → later ≤ index →
      ∃ result, Outcome batch client earlier result := by
    intro index report past inside
    obtain ⟨result, outcome, _⟩ := past.outcome earlier (Nat.lt_of_lt_of_le before inside)
    exact ⟨result, outcome⟩
  cases stands with
  | asked idle => exact absurd (idle later) begun
  | opened _ idle => exact absurd (idle later) begun
  | @serving index _ _ _ past _ after =>
    exact upTo past (Nat.le_of_not_lt fun beyond => begun (after later beyond))
  | refused idle => exact absurd (idle later) begun
  | reported _ past after =>
    exact upTo past (Nat.le_of_not_le fun beyond => begun (after later beyond))

/-- **A run of batches is a run of clients, one for each entry.** -/
theorem batches_are_clients {store : Store} {batches : Nat → Batch}
    {history : List (Event (System Store BatchStage) (Nat × Move) (Option (Result Json)))}
    {stop : System Store BatchStage} (run : BatchRun store batches history stop) :
    ∃ calls final, ClientRun store (entryRequests batches) calls final ∧
      Played batches stop final := by
  have start : ∀ k, StandsFor (batches k) ((clients store (entryRequests batches)).block k)
      ((batchSystem store batches).client k) := by
    intro k
    refine .asked fun index => ?_
    show Stage.asked (entryRequests batches (Nat.pair k index)) = _
    rw [entryRequests, Nat.unpair_pair]
  obtain ⟨calls, final, played, shared, stands⟩ :=
    Run.expanded (fun k stage block => StandsFor (batches k) block stage) run rfl start
      fun _ _ store move _ stands => stands.next store move
  refine ⟨calls, final, played, shared, fun k report answered => ?_, fun k error answered => ?_,
    fun k _ _ before begun => (stands k).serial before begun⟩
  · have here := stands k
    rw [answered] at here
    cases here with
    | reported accepted past _ => exact past.told accepted
  · have here := stands k
    rw [answered] at here
    cases here with
    | refused idle => exact idle

end External

/-! ### Sample batches -/

section Sample

attribute [local instance] External.sample

/-- A send of two entries, of which the second has no body, and deletes with a handle nobody
issued. -/
def sampleBatches : Nat → Batch
  | 0 => {
    kind := .sendMessageBatch
    body := .obj [("Entries", .arr [.obj [("Id", .str "first"), ("MessageBody", .str "hello")],
      .obj [("Id", .str "second")]]), ("QueueUrl", .str "orders")] }
  | _ => {
    kind := .deleteMessageBatch
    body := .obj [("Entries", .arr [.obj [("Id", .str "a"), ("ReceiptHandle", .str "handle")]]),
      ("QueueUrl", .str "orders")] }

/-- The batches after their calls, in turn. -/
def sampleServed : System Store BatchStage :=
  Run.final (System.step serve) (batchSystem sampleStore sampleBatches)
    ([0, 1, 0, 0, 1, 0, 1, 0].map sampleTurn)

/-- The ids under `Successful` and under `Failed` of an answer. -/
def answeredIds (stage : BatchStage) : Option (List String × List String) := do
  let answer ← (← stage.answer).toOption
  return (idsUnder "Successful" answer, idsUnder "Failed" answer)

theorem batches_are_clients_sample :
    answeredIds (sampleServed.client 0) = some (["first"], ["second"]) ∧
      answeredIds (sampleServed.client 1) = some ([], ["a"]) ∧
      ∃ calls final, ClientRun sampleStore (entryRequests sampleBatches) calls final ∧
        Played sampleBatches sampleServed final :=
  ⟨by decide +kernel, by decide +kernel,
    batches_are_clients (Run.of_trace (System.step serve)
      ([0, 1, 0, 0, 1, 0, 1, 0].map sampleTurn) (batchSystem sampleStore sampleBatches))⟩

end Sample

end CloudTwin.Sqs
