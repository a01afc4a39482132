/-
**The SQS service** (`SqsService` in `aws/sqs/service.rs`).

Every request but CreateQueue is two database calls: `get_queue` reads the queue, and a second call
works on what was read. `Operation.call` is that second call. `perform` is a whole request whose
calls follow each other directly; a run of requests is a `Run` of `perform` whose clock readings do
not decrease. Requests whose calls interleave are the clients of `CloudTwin.Sqs.Clients`.

A long poll is one `receive` for each time it looks: a poll reads the queue again in the call that
receives from it.
-/

import CloudTwin.Lib.Machine
import CloudTwin.Sqs.Messages

namespace CloudTwin.Sqs

open Lib

set_option linter.unusedSectionVars false

/-- What a request asks of a queue. -/
inductive Operation where
  | deleteQueue
  | purgeQueue
  | getQueueAttributes (names : List String)
  | setQueueAttributes (attributes : BTreeMap String)
  | tagQueue (tags : BTreeMap String)
  | untagQueue (keys : List String)
  | send (input : SendInput)
  | receive (options : ReceiveOptions)
  | deleteMessage (handle : String)
  | changeVisibility (handle : String) (timeout : Int)

inductive Request where
  | createQueue (name url : String) (attributes tags : BTreeMap String)
  | on (queue : String) (operation : Operation)

inductive Response where
  | done
  | attributes (values : BTreeMap String)
  | sent (sent : Sent)
  | received (received : Received)

def Response.deliveries : Response → List Delivery
  | .received result => result.deliveries
  | _ => []

def Response.redriven : Response → List (Nat × Nat)
  | .received result => result.redriven
  | _ => []

/-- The row of a message that the response reports as newly accepted. -/
def Response.accepted : Response → Option Nat
  | .sent result => result.row
  | _ => none

/-- A request and the reading of the clock when it is served. -/
structure Input where
  now : Int
  request : Request

section External

variable [External]

/-! ### The second call -/

/-- The checks of `SqsService::receive` before it polls. -/
def checkReceive (queue : SqsQueue) (options : ReceiveOptions) : Result Unit := do
  rejectIf (¬ (1 ≤ options.max ∧ options.max ≤ 10)) (.invalidParameter
    ("Value " ++ toString options.max ++ " for parameter MaxNumberOfMessages is invalid. " ++
      "Reason: Must be between 1 and 10, if provided."))
  rejectIf (∃ timeout ∈ options.visibilityTimeout, ¬ (0 ≤ timeout ∧ timeout ≤ maxVisibility))
    (.invalidParameter ("Value " ++ toString (options.visibilityTimeout.getD 0) ++
      " for parameter VisibilityTimeout is invalid. " ++
      "Reason: Must be between 0 and 43200, if provided."))
  let wait := options.waitSeconds.getD (queue.attrI64 "ReceiveMessageWaitTimeSeconds")
  rejectIf (¬ (0 ≤ wait ∧ wait ≤ 20)) (.invalidParameter
    ("Value " ++ toString wait ++ " for parameter WaitTimeSeconds is invalid. " ++
      "Reason: Must be >= 0 and <= 20, if provided."))

/-- One poll: the queue is read again by its name. -/
def pollTx (store : Store) (queue : SqsQueue) (options : ReceiveOptions) (now : Int) :
    Result (Received × Store) := do
  let queue ← requireQueue store queue.name
  receiveTx store queue options now

/-- **The second database call of a request**, on the queue the first call has read. -/
def Operation.call (operation : Operation) (store : Store) (queue : SqsQueue) (now : Int) :
    Result (Response × Store) :=
  match operation with
  | .deleteQueue => .ok (.done, deleteQueueTx store queue)
  | .purgeQueue => .ok (.done, purgeQueueTx store queue)
  | .getQueueAttributes names => do
    let (values, after) ← getAttributesTx store queue names now
    return (.attributes values, after)
  | .setQueueAttributes attributes => do
    let after ← setQueueAttributesTx store queue attributes now
    return (.done, after)
  | .tagQueue tags => do
    let after ← tagQueueTx store queue tags
    return (.done, after)
  | .untagQueue keys => do
    let after ← untagQueueTx store queue keys
    return (.done, after)
  | .send input => do
    let (sent, after) ← sendTx store queue input now
    return (.sent sent, after)
  | .receive options => do
    checkReceive queue options
    let (received, after) ← pollTx store queue options now
    return (.received received, after)
  | .deleteMessage handle => do
    let after ← deleteMessageTx store queue handle
    return (.done, after)
  | .changeVisibility handle timeout => do
    let after ← changeVisibilityTx store queue handle timeout now
    return (.done, after)

/-! ### Requests -/

/-- A call that fails leaves the store as it was. -/
def settle (store : Store) : Result (Response × Store) → Result Response × Store
  | .ok (response, after) => (.ok response, after)
  | .error error => (.error error, store)

def answer (store : Store) (input : Input) : Result (Response × Store) :=
  match input.request with
  | .createQueue name url attributes tags => do
    let after ← createQueueTx store name url attributes tags input.now
    return (.done, after)
  | .on name operation => do
    let queue ← getQueue store name
    operation.call store queue input.now

/-- **A request**, its calls one directly after the other. -/
def perform (store : Store) (input : Input) : Result Response × Store :=
  settle store (answer store input)

/-- A request that was served. -/
abbrev SqsEvent := Event Store Input (Result Response)

/-- **A run of the service** on a database that was empty at first. -/
structure ServiceRun (history : List SqsEvent) (store : Store) : Prop where
  run : Run perform Store.empty history store
  clocked : Clocked Input.now history

/-- The request asked this of the queue. -/
def Asked (event : SqsEvent) (queue : SqsQueue) (operation : Operation) : Prop :=
  ∃ name, event.input.request = .on name operation ∧ getQueue event.before name = .ok queue

/-- The request worked on the queue and succeeded. -/
structure Served (event : SqsEvent) (queue : SqsQueue) (operation : Operation)
    (response : Response) : Prop where
  found : Asked event queue operation
  called : operation.call event.before queue event.input.now = .ok (response, event.after)
  answered : event.output = .ok response

/-- **What a request can be**: refused, CreateQueue, or an operation on a queue. -/
theorem taken_cases {event : SqsEvent} (taken : event.Taken perform) :
    (∃ error, event.output = .error error ∧ event.after = event.before) ∨
    (∃ name url attributes tags, event.input.request = .createQueue name url attributes tags ∧
      event.output = .ok .done ∧ createQueueTx event.before name url attributes tags
        event.input.now = .ok event.after) ∨
    ∃ queue operation response, Served event queue operation response := by
  unfold Event.Taken perform at taken
  cases answered : answer event.before event.input with
  | error error =>
    rw [answered] at taken
    obtain ⟨output, after⟩ := Prod.mk.inj taken
    exact Or.inl ⟨error, output.symm, after.symm⟩
  | ok result =>
    obtain ⟨response, after⟩ := result
    rw [answered] at taken
    obtain ⟨output, same⟩ := Prod.mk.inj taken
    subst same
    refine Or.inr ?_
    unfold answer at answered
    split at answered
    · rename_i name url attributes tags request
      cases created : createQueueTx event.before name url attributes tags event.input.now with
      | error error =>
        rw [created] at answered
        cases answered
      | ok after =>
        rw [created] at answered
        cases answered
        exact Or.inl ⟨name, url, attributes, tags, request, output.symm, created⟩
    · rename_i name operation request
      cases found : getQueue event.before name with
      | error error =>
        rw [found] at answered
        cases answered
      | ok queue =>
        rw [found] at answered
        exact Or.inr ⟨queue, operation, response, ⟨name, request, found⟩, answered, output.symm⟩

theorem perform_on {store : Store} {name : String} {queue : SqsQueue} {operation : Operation}
    {now : Int} (found : getQueue store name = .ok queue) :
    perform store { now, request := .on name operation } =
      settle store (operation.call store queue now) := by
  simp only [perform, answer, found, bind, Except.bind]

/-- A request that found its queue is the second call. -/
theorem taken_on {event : SqsEvent} {queue : SqsQueue} {operation : Operation}
    (taken : event.Taken perform) (asked : Asked event queue operation) :
    settle event.before (operation.call event.before queue event.input.now) =
      (event.output, event.after) := by
  obtain ⟨name, request, found⟩ := asked
  have input : event.input = { now := event.input.now, request := .on name operation } := by
    rw [← request]
  rw [← taken, input, perform_on found]

theorem served_of_asked {event : SqsEvent} {queue : SqsQueue} {operation : Operation}
    {response : Response} (taken : event.Taken perform) (asked : Asked event queue operation)
    (answered : event.output = .ok response) : Served event queue operation response := by
  refine ⟨asked, ?_, answered⟩
  have settled := taken_on taken asked
  cases done : operation.call event.before queue event.input.now with
  | error error =>
    rw [done, answered] at settled
    cases (Prod.mk.inj settled).1
  | ok result =>
    obtain ⟨given, stored⟩ := result
    rw [done, answered] at settled
    obtain ⟨same, after⟩ := Prod.mk.inj settled
    rw [← after, Except.ok.inj same]

/-- The rows whose messages the request has returned. -/
def rowsReturned (event : SqsEvent) : List Nat :=
  match event.output with
  | .ok response => response.deliveries.map Delivery.row
  | .error _ => []

theorem mem_rowsReturned {event : SqsEvent} {id : Nat} (member : id ∈ rowsReturned event) :
    ∃ response, event.output = .ok response ∧
      ∃ delivery ∈ response.deliveries, delivery.row = id := by
  unfold rowsReturned at member
  split at member
  · rename_i response answered
    exact ⟨response, answered, List.mem_map.mp member⟩
  · cases member

/-- The row of the message that the request has accepted as new. -/
def rowAccepted (event : SqsEvent) : Option Nat :=
  match event.output with
  | .ok response => response.accepted
  | .error _ => none

theorem rowAccepted_some {event : SqsEvent} {id : Nat} (accepted : rowAccepted event = some id) :
    ∃ sent, event.output = .ok (.sent sent) ∧ sent.row = some id := by
  unfold rowAccepted at accepted
  split at accepted
  · rename_i response answered
    cases response with
    | sent sent => exact ⟨sent, answered, accepted⟩
    | done => cases accepted
    | attributes => cases accepted
    | received => cases accepted
  · cases accepted

/-- The rows whose messages the request has moved to a dead-letter queue. -/
def rowsMoved (event : SqsEvent) : List Nat :=
  match event.output with
  | .ok response => response.redriven.map Prod.fst
  | .error _ => []

namespace ServiceRun

theorem initial : ServiceRun [] Store.empty :=
  ⟨Run.start, List.Pairwise.nil⟩

/-- **Induction over a run**: the step is one request, at a time that is not before any earlier
one's. -/
theorem induct {motive : List SqsEvent → Store → Prop} {history : List SqsEvent} {store : Store}
    (served : ServiceRun history store) (initial : motive [] Store.empty)
    (next : ∀ history event, ServiceRun history event.before → event.Taken perform →
      (∀ earlier ∈ history, earlier.input.now ≤ event.input.now) →
      motive history event.before → motive (history ++ [event]) event.after) :
    motive history store := by
  obtain ⟨run, clocked⟩ := served
  induction run with
  | start => exact initial
  | @next history event run taken ih =>
    exact next history event ⟨run, clocked.past⟩ taken clocked.later (ih clocked.past)

/-- A run and one more request, at a time that is not before. -/
theorem extend {history : List SqsEvent} {event : SqsEvent} (served : ServiceRun history event.before)
    (taken : event.Taken perform)
    (later : ∀ earlier ∈ history, earlier.input.now ≤ event.input.now) :
    ServiceRun (history ++ [event]) event.after :=
  ⟨Run.next served.run taken, List.pairwise_append.mpr ⟨served.clocked, List.pairwise_singleton _ _,
    fun earlier member _ only => List.mem_singleton.mp only ▸ later earlier member⟩⟩

/-- What every request keeps holds after every run. -/
theorem invariant {Inv : Store → Prop} {history : List SqsEvent} {store : Store}
    (served : ServiceRun history store) (initial : Inv Store.empty)
    (preserved : ∀ event : SqsEvent, event.Taken perform → Inv event.before → Inv event.after) :
    Inv store :=
  served.run.invariant initial preserved

/-- The run that serves a list of requests. -/
theorem of_inputs (inputs : List Input)
    (clock : inputs.Pairwise fun first second => first.now ≤ second.now) :
    ServiceRun (Run.trace perform Store.empty inputs)
      (Run.final perform Store.empty inputs) := by
  refine ⟨Run.of_trace perform inputs Store.empty, ?_⟩
  rw [← Run.trace_inputs perform inputs Store.empty, List.pairwise_map] at clock
  exact clock

/-- The clock at a request is not before the clock at any earlier one. -/
theorem clock {past rest : List SqsEvent} {event : SqsEvent} {store : Store}
    (served : ServiceRun (past ++ event :: rest) store) :
    ∀ earlier ∈ past, earlier.input.now ≤ event.input.now :=
  fun earlier member => (List.pairwise_append.mp served.clocked).2.2 earlier member event
    List.mem_cons_self

theorem around {past rest : List SqsEvent} {event : SqsEvent} {store : Store}
    (served : ServiceRun (past ++ event :: rest) store) :
    ServiceRun past event.before ∧ event.Taken perform ∧ Run perform event.after rest store :=
  ⟨⟨served.run.around.1, (List.pairwise_append.mp served.clocked).1⟩, served.run.around.2⟩

end ServiceRun

end External

/-! ### Sample requests -/

def sampleCreate (now : Int) : Input where
  now := now
  request := .createQueue "orders" "http://localhost:4566/000000000000/orders" ∅ ∅

def sampleSend (now : Int) : Input where
  now := now
  request := .on "orders" (.send { body := "hello" })

def sampleReceive (now : Int) : Input where
  now := now
  request := .on "orders" (.receive { max := 1 })

/-- A FIFO queue that deduplicates by content, with a delay. -/
def sampleCreateFifo (now : Int) (delay : String) : Input where
  now := now
  request := .createQueue "orders.fifo" "http://localhost:4566/000000000000/orders.fifo"
    (((∅ : BTreeMap String).insert "FifoQueue" "true").insert "DelaySeconds" delay) ∅

def sampleSendFifo (now : Int) (dedupId : String) : Input where
  now := now
  request := .on "orders.fifo"
    (.send { body := "hello", groupId := some "group", dedupId := some dedupId })

def sampleSetDelay (now : Int) (delay : String) : Input where
  now := now
  request := .on "orders.fifo"
    (.setQueueAttributes ((∅ : BTreeMap String).insert "DelaySeconds" delay))

def sampleReceiveFifo (now : Int) : Input where
  now := now
  request := .on "orders.fifo" (.receive { max := 10 })

section Sample

attribute [local instance] External.sample

/-- One message in one queue. -/
def sampleStore : Store :=
  Run.final perform Store.empty [sampleCreate 0, sampleSend 0]

/-- The first receive of the message. -/
def sampleFirst : SqsEvent :=
  Event.of perform sampleStore (sampleReceive 0)

end Sample

end CloudTwin.Sqs
