/-
**Messages whose queue is gone.**

A send reads its queue in one call and inserts its message in a later one. A FIFO send counts the
message on the queue row and fails when there is none; a standard send inserts without looking at
the queue again, so that a DeleteQueue between its two calls leaves the message without a queue.

* `Housed` — every message and every deduplication record belongs to a queue that exists.
* `CallStep.housed` — the only call that can break it is a send that accepts a message for a queue
  that is no longer there.
* `housed_run` — a run in which every accepted standard send still finds its queue keeps it;
  `message_orphaned` is a run with a delete in between.
-/

import CloudTwin.Sqs.Clients
import CloudTwin.Sqs.Deduplication

namespace CloudTwin.Sqs

open Lib

set_option linter.unusedSectionVars false

/-- **Every message and every deduplication record belongs to a queue.** -/
structure Housed (store : Store) : Prop where
  messages : ∀ id row, store.messages.get id = some row →
    ∃ home, store.queues.get row.queueId = some home
  records : ∀ record ∈ store.dedup, ∃ home, store.queues.get record.queueId = some home

theorem housed_empty : Housed Store.empty :=
  ⟨fun _ _ => nofun, fun _ => nofun⟩

section External

variable [External]

theorem housed_created {before after : Store} {name url : String}
    {attributes tags : BTreeMap String} {now : Int} (housed : Housed before)
    (done : createQueueTx before name url attributes tags now = .ok after) : Housed after := by
  obtain ⟨_, _, _, ⟨_, _, rfl⟩ | ⟨_, rfl⟩⟩ := createQueueTx_ok done
  · exact housed
  · have stays : ∀ id row, before.queues.get id = some row → ∀ fresh,
        ∃ home, (before.queues.insert fresh).get id = some home := by
      intro id row here fresh
      refine ⟨row, ?_⟩
      rw [Table.get_insert, if_neg (Nat.ne_of_lt (Table.get_lt here)), here]
    refine ⟨fun id row here => ?_, fun record member => ?_⟩
    · obtain ⟨home, there⟩ := housed.messages id row here
      exact stays _ home there _
    · obtain ⟨home, there⟩ := housed.records record member
      exact stays _ home there _

variable {before after : Store} {queue : SqsQueue} {operation : Operation} {now : Int}
  {response : Response}

theorem housed_deleted (housed : Housed before) (queue : SqsQueue) :
    Housed (deleteQueueTx before queue) := by
  have stays : ∀ id, id ≠ queue.id → (∃ home, before.queues.get id = some home) →
      ∃ home, (deleteQueueTx before queue).queues.get id = some home := by
    intro id other ⟨home, there⟩
    refine ⟨home, ?_⟩
    show (before.queues.delete _).get id = some home
    rw [Table.get_delete, there]
    simp [Option.filter, other]
  refine ⟨fun id row here => ?_, fun record member => ?_⟩
  · have kept : (before.messages.get id).filter (fun row => !(row.queueId == queue.id)) =
        some row := by
      rw [← Table.get_delete before.messages (fun _ row => row.queueId == queue.id)]
      exact here
    rw [Option.filter_eq_some_iff] at kept
    exact stays _ (by simpa using kept.2) (housed.messages id row kept.1)
  · obtain ⟨was, other⟩ := List.mem_filter.mp member
    exact stays _ (by simpa using other) (housed.records record was)

/-- **A call keeps every message in a queue**, if the queue of the message it accepts exists. -/
theorem CallStep.housed (step : CallStep before queue now operation response after)
    (housed : Housed before)
    (home : ∀ id, response.accepted = some id → ∃ row, before.queues.get queue.id = some row) :
    Housed after := by
  by_cases deleting : operation = .deleteQueue
  · subst deleting
    cases step
    exact housed_deleted housed queue
  · have stays : ∀ id, (∃ row, before.queues.get id = some row) →
        ∃ row, after.queues.get id = some row := fun id ⟨_, was⟩ =>
      (step.queueRow id).stays was fun asked => absurd asked deleting
    refine ⟨fun id row here => ?_, fun record member => ?_⟩
    · cases (step.row id).origin here with
      | kept old visible was => exact stays _ (housed.messages id old was)
      | changed old timeout was => exact stays _ (housed.messages id old was)
      | accepted input delay dedupId sequenceNumber _ _ _ _ reported =>
        exact stays _ (home id reported)
      | delivered old options draw was => exact stays _ (housed.messages id old was)
      | redriven old options draw dlq max _ _ _ _ _ target =>
        obtain ⟨row, there, _⟩ := deadLetterQueue_row target
        exact stays _ ⟨row, there⟩
    · have old : record ∈ before.dedup → ∃ row, after.queues.get record.queueId = some row :=
        fun was => stays _ (housed.records record was)
      cases step.dedup with
      | same still => exact old (still ▸ member)
      | refreshed swept => exact old (mem_unexpired.mp (swept ▸ member)).1
      | dropped gone swept => exact old (List.mem_of_mem_filter (swept ▸ member))
      | accepted asked fifo effective unknown found numbered answered counted recorded =>
        rw [recorded, replaceDedup, List.mem_append, List.mem_singleton] at member
        rcases member with was | rfl
        · exact old (mem_unexpired.mp (List.mem_of_mem_filter was)).1
        · exact stays _ ⟨_, found⟩

/-! ### Runs of clients -/

/-- **The second call of a standard send that passes its checks finds its queue.** -/
def SendsHome (event : ClientEvent) : Prop :=
  ∀ name input queue delay, stageBefore event = .found name (.send input) queue →
    queue.isFifo = false → checkSend queue input = .ok delay →
    ∃ row, event.before.shared.queues.get queue.id = some row

theorem housed_called (called : operation.call before queue now = .ok (response, after))
    (housed : Housed before)
    (home : ∀ input delay, operation = .send input → queue.isFifo = false →
      checkSend queue input = .ok delay → ∃ row, before.queues.get queue.id = some row) :
    Housed after := by
  obtain ⟨working, step, rfl | ⟨options, rfl, _⟩⟩ := call_step called
  · refine step.housed housed fun id reported => ?_
    cases step with
    | send input result after sent =>
      cases sent with
      | standard plain checked => exact home input _ rfl plain checked
      | duplicate => cases reported
      | fifo _ _ _ _ found => exact ⟨_, found⟩
    | _ => cases reported
  · refine step.housed housed fun id reported => ?_
    cases step
    cases reported

theorem housed_step {event : ClientEvent} (taken : event.Taken (System.step advance))
    (home : SendsHome event) (housed : Housed event.before.shared) :
    Housed event.after.shared := by
  cases taken_advanced taken with
  | same still => exact still ▸ housed
  | created name url attributes tags _ done => exact housed_created housed done
  | called name operation queue response stage done =>
    refine housed_called done housed fun input delay asked plain checked => ?_
    exact home name input queue delay (asked ▸ stage) plain checked

/-- **No message without a queue**, in a run of clients in which every standard send that is
accepted still finds its queue. -/
theorem housed_run {requests : Nat → Request} {history : List ClientEvent}
    {final : System Store Stage} (run : ClientRun Store.empty requests history final)
    (home : ∀ event ∈ history, SendsHome event) : Housed final.shared := by
  refine @Run.invariant_along _ _ _ _ _ _ _ (fun system => Housed system.shared) run
    housed_empty fun event member taken housed => ?_
  exact housed_step taken (home event member) housed

/-- The queue that a send is about to insert into exists. -/
def sendFindsQueue (event : ClientEvent) : Bool :=
  match stageBefore event with
  | .found _ (.send _) queue => (event.before.shared.queues.get queue.id).isSome
  | _ => true

theorem sendsHome_of_finds {event : ClientEvent} (finds : sendFindsQueue event = true) :
    SendsHome event := by
  intro name input queue delay stage _ _
  rw [sendFindsQueue, stage] at finds
  exact Option.isSome_iff_exists.mp finds

end External

/-! ### A send around a delete -/

/-- A client that creates the queue, one that sends, and one that deletes. -/
def sampleRace : Nat → Request
  | 0 => (sampleCreate 0).request
  | 1 => (sampleSend 0).request
  | _ => .on "orders" .deleteQueue

section Sample

attribute [local instance] External.sample

/-- The sender reads the queue, the queue is deleted, the sender inserts. -/
theorem message_orphaned : ∃ history final,
    ClientRun Store.empty sampleRace history final ∧ ¬ Housed final.shared ∧
      (match final.client 1 with
        | .finished (.ok (.sent _)) => true
        | _ => false) = true := by
  refine ⟨_, _, Run.of_trace (System.step advance) ([0, 1, 2, 2, 1].map sampleTurn)
    (clients Store.empty sampleRace), fun housed => ?_, by decide⟩
  have stored : ((Run.final (System.step advance) (clients Store.empty sampleRace)
      ([0, 1, 2, 2, 1].map sampleTurn)).shared.messages.get 1).map MessageRow.queueId =
        some 1 := by decide
  obtain ⟨row, here, home⟩ := Option.map_eq_some_iff.mp stored
  obtain ⟨queue, there⟩ := housed.messages 1 row here
  have gone : ((Run.final (System.step advance) (clients Store.empty sampleRace)
      ([0, 1, 2, 2, 1].map sampleTurn)).shared.queues.get 1).isNone = true := by decide
  rw [home] at there
  rw [there] at gone
  cases gone

/-- The sender inserts before the queue is deleted. -/
theorem housed_run_sample : Housed (Run.final (System.step advance)
    (clients Store.empty sampleRace) ([0, 1, 2, 1, 2].map sampleTurn)).shared :=
  housed_run (Run.of_trace (System.step advance) ([0, 1, 2, 1, 2].map sampleTurn)
      (clients Store.empty sampleRace)) fun _ member =>
    sendsHome_of_finds (List.all_eq_true.mp (by decide) _ member)

end Sample

end CloudTwin.Sqs
