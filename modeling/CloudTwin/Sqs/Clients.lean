/-
**Clients of the SQS service.**

A request is a sequence of database calls (`SqsService` in `aws/sqs/service.rs`): `get_queue` reads
the queue, a second call works on what was read, and a long poll repeats the second call. Each call
runs alone; between two calls of one client any other client can take its turn.

* `Stage` and `advance` — where a client's request stands, and its next database call.
* `ClientRun` — a run of any number of clients, their calls in any order.
* `Advanced` — what one call can do to the store.
-/

import CloudTwin.Sqs.Rows

namespace CloudTwin.Sqs

open Lib

set_option linter.unusedSectionVars false

/-- Where the request of a client stands. -/
inductive Stage where
  | asked (request : Request)
  | found (name : String) (operation : Operation) (queue : SqsQueue)
  | finished (result : Result Response)

/-- What a call does not take from the store: the reading of the clock, and whether a receive that
found nothing may look again. -/
structure Move where
  now : Int
  again : Bool
  deriving DecidableEq

/-- The answer, when the call is the last one of its request. -/
abbrev Answered := Option (Result Response)

/-- A receive that returned nothing. -/
def Response.nothing : Response → Bool
  | .received result => result.deliveries.isEmpty
  | _ => false

section External

variable [External]

/-- The call that answers the request. -/
def finish (store : Store) (result : Result (Response × Store)) : Answered × Store × Stage :=
  let settled := settle store result
  (some settled.1, settled.2, .finished settled.1)

/-- The first call of a request. -/
def firstCall (store : Store) (request : Request) (now : Int) : Answered × Store × Stage :=
  match request with
  | .createQueue name url attributes tags =>
    finish store (answer store ⟨now, .createQueue name url attributes tags⟩)
  | .on name operation =>
    match getQueue store name with
    | .ok queue => (none, store, .found name operation queue)
    | .error error => finish store (.error error)

/-- A call on the queue that the client has read. -/
def secondCall (store : Store) (name : String) (operation : Operation) (queue : SqsQueue)
    (move : Move) : Answered × Store × Stage :=
  match operation.call store queue move.now with
  | .ok (response, after) =>
    if move.again && response.nothing then (none, after, .found name operation queue)
    else finish store (.ok (response, after))
  | .error error => finish store (.error error)

/-- **The next call of a client.** -/
def advance (store : Store) (stage : Stage) (move : Move) : Answered × Store × Stage :=
  match stage with
  | .asked request => firstCall store request move.now
  | .found name operation queue => secondCall store name operation queue move
  | .finished result => (none, store, .finished result)

/-- The store and the clients, each with its request. -/
def clients (store : Store) (requests : Nat → Request) : System Store Stage where
  shared := store
  client := fun client => .asked (requests client)

abbrev ClientEvent := Event (System Store Stage) (Nat × Move) Answered

/-- **A run of clients**, the calls in any order. -/
abbrev ClientRun (store : Store) (requests : Nat → Request) (history : List ClientEvent)
    (final : System Store Stage) : Prop :=
  Run (System.step advance) (clients store requests) history final

/-- The stage of the client whose turn it is. -/
def stageBefore (event : ClientEvent) : Stage :=
  event.before.client event.input.1

/-- **What a call does to the store**: nothing, or it creates a queue, or it works on the queue that
the client has read. -/
inductive Advanced (event : ClientEvent) : Prop
  | same (still : event.after.shared = event.before.shared)
  | created (name url : String) (attributes tags : BTreeMap String)
      (stage : stageBefore event = .asked (.createQueue name url attributes tags))
      (done : createQueueTx event.before.shared name url attributes tags event.input.2.now =
        .ok event.after.shared)
  | called (name : String) (operation : Operation) (queue : SqsQueue) (response : Response)
      (stage : stageBefore event = .found name operation queue)
      (done : operation.call event.before.shared queue event.input.2.now =
        .ok (response, event.after.shared))

theorem finish_ok (store after : Store) (response : Response) :
    (finish store (.ok (response, after))).2.1 = after := rfl

theorem finish_error (store : Store) (error : SqsError) :
    (finish store (.error error)).2.1 = store := rfl

/-! ### What the first call does -/

theorem firstCall_create_ok {store after : Store} {name url : String} {attributes tags : BTreeMap String}
    {now : Int} (done : createQueueTx store name url attributes tags now = .ok after) :
    firstCall store (.createQueue name url attributes tags) now =
      finish store (.ok (.done, after)) := by
  unfold firstCall
  simp only [answer, done, bind, Except.bind, pure, Except.pure]

theorem firstCall_create_error {store : Store} {name url : String} {attributes tags : BTreeMap String}
    {now : Int} {error : SqsError}
    (done : createQueueTx store name url attributes tags now = .error error) :
    firstCall store (.createQueue name url attributes tags) now =
      finish store (.error error) := by
  unfold firstCall
  simp only [answer, done, bind, Except.bind]

theorem firstCall_on_ok {store : Store} {name : String} {queue : SqsQueue} (operation : Operation)
    (now : Int) (found : getQueue store name = .ok queue) :
    firstCall store (.on name operation) now = (none, store, .found name operation queue) := by
  unfold firstCall
  simp only [found]

theorem firstCall_on_error {store : Store} {name : String} {error : SqsError} (operation : Operation)
    (now : Int) (found : getQueue store name = .error error) :
    firstCall store (.on name operation) now = finish store (.error error) := by
  unfold firstCall
  simp only [found]

/-! ### What the second call does -/

theorem secondCall_error {store : Store} {operation : Operation} {queue : SqsQueue} {error : SqsError}
    {move : Move} (name : String) (called : operation.call store queue move.now = .error error) :
    secondCall store name operation queue move = finish store (.error error) := by
  unfold secondCall
  simp only [called]

theorem secondCall_ok {store after : Store} {operation : Operation} {queue : SqsQueue}
    {response : Response} {move : Move} (name : String)
    (called : operation.call store queue move.now = .ok (response, after)) :
    secondCall store name operation queue move =
      if move.again && response.nothing then (none, after, .found name operation queue)
      else finish store (.ok (response, after)) := by
  unfold secondCall
  simp only [called]

theorem advance_asked (store : Store) (request : Request) (move : Move) :
    advance store (.asked request) move = firstCall store request move.now := rfl

theorem advance_found (store : Store) (name : String) (operation : Operation) (queue : SqsQueue)
    (move : Move) :
    advance store (.found name operation queue) move = secondCall store name operation queue move := rfl

theorem advance_finished (store : Store) (result : Result Response) (move : Move) :
    advance store (.finished result) move = (none, store, .finished result) := rfl

theorem taken_advanced {event : ClientEvent} (taken : event.Taken (System.step advance)) :
    Advanced event := by
  have moved := (System.taken_advance taken).1
  have after : (advance event.before.shared (stageBefore event) event.input.2).2.1 =
      event.after.shared := by rw [stageBefore, moved]
  clear moved
  cases stage : stageBefore event with
  | finished result =>
    rw [stage, advance_finished] at after
    exact Advanced.same after.symm
  | asked request =>
    rw [stage, advance_asked] at after
    cases request with
    | createQueue name url attributes tags =>
      cases done : createQueueTx event.before.shared name url attributes tags
          event.input.2.now with
      | error error =>
        rw [firstCall_create_error done, finish_error] at after
        exact Advanced.same after.symm
      | ok stored =>
        rw [firstCall_create_ok done, finish_ok] at after
        exact Advanced.created name url attributes tags stage (after ▸ done)
    | on name operation =>
      cases found : getQueue event.before.shared name with
      | error error =>
        rw [firstCall_on_error operation _ found, finish_error] at after
        exact Advanced.same after.symm
      | ok queue =>
        rw [firstCall_on_ok operation _ found] at after
        exact Advanced.same after.symm
  | found name operation queue =>
    rw [stage, advance_found] at after
    cases called : operation.call event.before.shared queue event.input.2.now with
    | error error =>
      rw [secondCall_error name called, finish_error] at after
      exact Advanced.same after.symm
    | ok result =>
      obtain ⟨response, stored⟩ := result
      refine Advanced.called name operation queue response stage ?_
      rw [called]
      rw [secondCall_ok name called] at after
      split at after
      · rw [← after]
      · rw [finish_ok] at after
        rw [← after]

end External

/-- The turn of a client at time zero. -/
def sampleTurn (client : Nat) : Nat × Move :=
  (client, { now := 0, again := false })

end CloudTwin.Sqs
