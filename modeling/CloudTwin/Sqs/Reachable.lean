/-
**What holds of the SQS tables after every run of requests.**

* `QueueStep` and `CallStep.queueRow` — everything a request can do to a queue row.
* `Tidy` and `ServiceRun.tidy` — in every reachable store queue names are valid and belong to one
  queue, every stored attribute passed its check, every message belongs to a queue that exists, and
  no two messages share a receipt handle.
-/

import CloudTwin.Sqs.Attributes
import CloudTwin.Sqs.Rows

namespace CloudTwin.Sqs

open Lib Lib.Text

set_option linter.unusedSectionVars false

section External

variable [External]

/-! ### Queue rows -/

/-- **Everything a request on a queue can do to a queue row.** -/
inductive QueueStep (before after : Store) (queue : SqsQueue) (operation : Operation) (now : Int)
    (id : Nat) : Prop
  | same (still : after.queues.get id = before.queues.get id)
      (stays : operation = .deleteQueue → id ≠ queue.id)
  | deleted (gone : after.queues.get id = none) (asked : operation = .deleteQueue)
      (here : id = queue.id)
  | configured {row : QueueRow} {attributes normalized : BTreeMap String}
      (was : before.queues.get id = some row)
      (set : after.queues.get id = some { row with
        attributes := mergeAttributes queue.attributes normalized, modifiedTs := now / 1000 })
      (asked : operation = .setQueueAttributes attributes) (here : id = queue.id)
      (validated : validateAttributes before queue.name attributes false = .ok normalized)
      (allowed : ∀ value, normalized["FifoQueue"]? = some value →
        (value == "true") = queue.isFifo)
  | tagged {row : QueueRow} {tags : BTreeMap String} (was : before.queues.get id = some row)
      (set : after.queues.get id = some { row with tags }) (here : id = queue.id)
      (asked : (∃ more, operation = .tagQueue more ∧ tags = extendTags queue.tags more) ∨
        ∃ keys, operation = .untagQueue keys ∧ tags = removeTags queue.tags keys)
  | counted {row : QueueRow} {input : SendInput} (was : before.queues.get id = some row)
      (set : after.queues.get id = some { row with fifoSeq := row.fifoSeq + 1 })
      (asked : operation = .send input) (fifo : queue.isFifo = true) (here : id = queue.id)

theorem QueueStep.of_modify {before after : Store} {queue : SqsQueue} {operation : Operation}
    {now : Int} {id : Nat} {change : QueueRow → QueueRow}
    (same : after.queues = before.queues.modify queue.id change)
    (stays : operation ≠ .deleteQueue)
    (changed : ∀ row, id = queue.id → before.queues.get id = some row →
      after.queues.get id = some (change row) → QueueStep before after queue operation now id) :
    QueueStep before after queue operation now id := by
  have found : after.queues.get id = if id = queue.id then (before.queues.get id).map change
      else before.queues.get id := by rw [same, Table.get_modify]
  by_cases here : id = queue.id
  · rw [if_pos here] at found
    cases was : before.queues.get id with
    | none => exact QueueStep.same (by rw [found, was]; rfl) fun asked => absurd asked stays
    | some row => exact changed row here was (by rw [found, was]; rfl)
  · rw [if_neg here] at found
    exact QueueStep.same found fun _ => here

theorem receiveTx_frame {store after : Store} {queue : SqsQueue} {options : ReceiveOptions}
    {now : Int} {received : Received}
    (done : receiveTx store queue options now = .ok (received, after)) :
    after.queues = store.queues ∧ after.dedup = (refresh store queue now).dedup ∧
      after.messages.next = store.messages.next ∧ store.drawn ≤ after.drawn := by
  obtain ⟨_, _, _, scanned, rfl, _⟩ := receiveTx_scanned done
  exact ⟨scanned.progress.frame.1, scanned.progress.frame.2, scanned.progress.next,
    scanned.progress.drawn⟩

section Steps

variable {before after : Store} {queue : SqsQueue} {operation : Operation} {now : Int}
  {response : Response}

/-- **A call does to every queue row what `QueueStep` says.** -/
theorem CallStep.queueRow (step : CallStep before queue now operation response after) (id : Nat) :
    QueueStep before after queue operation now id := by
  cases step with
  | deleteQueue =>
    have found : (deleteQueueTx before queue).queues.get id =
        (before.queues.get id).filter fun _ => !(id == queue.id) := Table.get_delete _ _ _
    by_cases here : id = queue.id
    · refine QueueStep.deleted ?_ rfl here
      rw [found]
      cases before.queues.get id with
      | none => rfl
      | some row => simp [Option.filter, here]
    · refine QueueStep.same ?_ fun _ => here
      rw [found]
      cases before.queues.get id with
      | none => rfl
      | some row => simp [Option.filter, here]
  | purgeQueue => exact QueueStep.same rfl nofun
  | getQueueAttributes => exact QueueStep.same rfl nofun
  | setQueueAttributes attributes normalized validated allowed =>
    exact QueueStep.of_modify rfl nofun fun row here was set =>
      QueueStep.configured was set rfl here validated allowed
  | tagQueue more =>
    exact QueueStep.of_modify rfl nofun fun row here was set =>
      QueueStep.tagged was set here (Or.inl ⟨more, rfl, rfl⟩)
  | untagQueue keys =>
    exact QueueStep.of_modify rfl nofun fun row here was set =>
      QueueStep.tagged was set here (Or.inr ⟨keys, rfl, rfl⟩)
  | send input result after step =>
    cases step with
    | standard => exact QueueStep.same rfl nofun
    | duplicate => exact QueueStep.same rfl nofun
    | fifo fifo => exact QueueStep.of_modify rfl nofun fun row here was set =>
        QueueStep.counted was set rfl fifo here
  | receive options result after done =>
    exact QueueStep.same (by rw [(receiveTx_frame done).1]) nofun
  | deleteMessage => exact QueueStep.same rfl nofun
  | changeVisibility => exact QueueStep.same rfl nofun

/-- No operation on a queue gives out a queue id. -/
theorem CallStep.queues_next (step : CallStep before queue now operation response after) :
    after.queues.next = before.queues.next := by
  cases step with
  | send input result after step =>
    cases step with
    | standard => rfl
    | duplicate => rfl
    | fifo => rfl
  | receive options result after done => rw [(receiveTx_frame done).1]
  | deleteQueue => rfl
  | purgeQueue => rfl
  | getQueueAttributes => rfl
  | setQueueAttributes => rfl
  | tagQueue => rfl
  | untagQueue => rfl
  | deleteMessage => rfl
  | changeVisibility => rfl

end Steps

/-- The count of a queue's accepted messages does not decrease. -/
theorem QueueStep.counts {before after : Store} {queue : SqsQueue} {operation : Operation}
    {now : Int} {id : Nat} {row : QueueRow} (step : QueueStep before after queue operation now id)
    (here : after.queues.get id = some row) :
    ∃ old, before.queues.get id = some old ∧ old.fifoSeq ≤ row.fifoSeq := by
  cases step with
  | same still => exact ⟨row, still ▸ here, le_rfl⟩
  | deleted gone => rw [gone] at here; cases here
  | configured was set => rw [set] at here; cases here; exact ⟨_, was, le_rfl⟩
  | tagged was set => rw [set] at here; cases here; exact ⟨_, was, le_rfl⟩
  | counted was set => rw [set] at here; cases here; exact ⟨_, was, Nat.le_succ _⟩

/-- A queue keeps its id and its count along a request, and the ids of new queues were not used. -/
theorem taken_counts {event : SqsEvent} (taken : event.Taken perform) :
    event.before.queues.next ≤ event.after.queues.next ∧
      ∀ id row, event.after.queues.get id = some row → id < event.before.queues.next →
        ∃ old, event.before.queues.get id = some old ∧ old.fifoSeq ≤ row.fifoSeq := by
  rcases taken_cases taken with ⟨_, _, same⟩ | ⟨_, _, _, _, _, _, created⟩ | ⟨_, _, _, served⟩
  · rw [same]
    exact ⟨le_rfl, fun id row here _ => ⟨row, here, le_rfl⟩⟩
  · obtain ⟨_, _, _, ⟨_, _, same⟩ | ⟨_, same⟩⟩ := createQueueTx_ok created
    · rw [same]
      exact ⟨le_rfl, fun id row here _ => ⟨row, here, le_rfl⟩⟩
    · rw [same]
      refine ⟨Nat.le_succ _, fun id row here old => ⟨row, ?_, le_rfl⟩⟩
      rwa [Table.get_insert, if_neg old.ne] at here
  · exact ⟨served.step.queues_next.ge, fun id row here _ => (served.step.queueRow id).counts here⟩

theorem run_queues_next {start store : Store} {history : List SqsEvent}
    (run : Run perform start history store) : start.queues.next ≤ store.queues.next := by
  induction run with
  | start => exact le_rfl
  | next _ taken ih => exact ih.trans (taken_counts taken).1

/-- A queue row keeps its name. -/
theorem QueueStep.name {before after : Store} {queue : SqsQueue} {operation : Operation} {now : Int}
    {id : Nat} {row : QueueRow} (step : QueueStep before after queue operation now id)
    (here : after.queues.get id = some row) :
    ∃ old, before.queues.get id = some old ∧ old.name = row.name := by
  cases step with
  | same still => exact ⟨row, still ▸ here, rfl⟩
  | deleted gone => rw [gone] at here; cases here
  | configured was set => rw [set] at here; cases here; exact ⟨_, was, rfl⟩
  | tagged was set => rw [set] at here; cases here; exact ⟨_, was, rfl⟩
  | counted was set => rw [set] at here; cases here; exact ⟨_, was, rfl⟩

theorem QueueStep.checked {before after : Store} {queue : SqsQueue} {operation : Operation}
    {now : Int} {id : Nat} (step : QueueStep before after queue operation now id)
    (queueChecked : Checked queue.attributes)
    (past : ∀ row, before.queues.get id = some row → Checked row.attributes) {row : QueueRow}
    (here : after.queues.get id = some row) : Checked row.attributes := by
  cases step with
  | same still => exact past row (still ▸ here)
  | deleted gone =>
    rw [gone] at here
    cases here
  | configured was set _ _ validated =>
    rw [set] at here
    cases here
    exact checked_merge queueChecked validated
  | @tagged old _ was set =>
    rw [set] at here
    cases here
    exact past old was
  | @counted old _ was set =>
    rw [set] at here
    cases here
    exact past old was

/-! ### Reachable stores -/

/-- **What every reachable store satisfies.** -/
structure Tidy (store : Store) : Prop where
  named : ∀ id row, store.queues.get id = some row → validQueueName row.name = true
  unique : ∀ first second row other, store.queues.get first = some row →
    store.queues.get second = some other → row.name = other.name → first = second
  checked : ∀ id row, store.queues.get id = some row → Checked row.attributes
  housed : ∀ id row, store.messages.get id = some row →
    ∃ home, store.queues.get row.queueId = some home

theorem tidy_empty : Tidy Store.empty :=
  ⟨fun _ _ => nofun, fun _ _ _ _ => nofun, fun _ _ => nofun, fun _ _ => nofun⟩

/-- The queue a request works on is a queue of the store, and its attributes passed their checks. -/
theorem Tidy.served {store : Store} (tidy : Tidy store) {name : String} {queue : SqsQueue}
    (found : getQueue store name = .ok queue) :
    (∃ row, store.queues.get queue.id = some row ∧ row.attributes = queue.attributes) ∧
      Checked queue.attributes := by
  obtain ⟨row, here, _, same⟩ := getQueue_row found
  have attributes : row.attributes = queue.attributes := by rw [same]; rfl
  exact ⟨⟨row, here, attributes⟩, attributes ▸ tidy.checked _ _ here⟩

theorem find_none {store : Store} {name : String} (absent : findQueue store name = none) :
    ∀ id row, store.queues.get id = some row → row.name ≠ name := by
  intro id row here same
  rw [findQueue, Option.map_eq_none_iff, List.find?_eq_none] at absent
  exact absent (id, row) ((Table.get_eq_some _ _ _).mp here) (by simp [same])

theorem tidy_created {before after : Store} {name url : String} {attributes tags : BTreeMap String}
    {now : Int} (tidy : Tidy before)
    (done : createQueueTx before name url attributes tags now = .ok after) : Tidy after := by
  obtain ⟨valid, normalized, validated, ⟨_, _, rfl⟩ | ⟨absent, rfl⟩⟩ := createQueueTx_ok done
  · exact tidy
  · have other := find_none absent
    let fresh : QueueRow :=
      { name, url, attributes := storedAttributes normalized, tags
        createdTs := now / 1000, modifiedTs := now / 1000, fifoSeq := 0 }
    have found : ∀ id, (before.queues.insert fresh).get id =
        if id = before.queues.next then some fresh else before.queues.get id :=
      Table.get_insert before.queues fresh
    -- A row of the new table is the new queue or an old one.
    have rows : ∀ id row, (before.queues.insert fresh).get id = some row →
        (id = before.queues.next ∧ row = fresh) ∨ before.queues.get id = some row := by
      intro id row here
      rw [found] at here
      split at here
      · rename_i new
        cases here
        exact Or.inl ⟨new, rfl⟩
      · exact Or.inr here
    refine ⟨fun id row here => ?_, fun first second row rowSecond here hereSecond same => ?_,
      fun id row here => ?_, fun id row here => ?_⟩
    · rcases rows id row here with ⟨_, rfl⟩ | old
      · exact valid
      · exact tidy.named id row old
    · rcases rows first row here with ⟨newFirst, rfl⟩ | oldFirst
      · rcases rows second rowSecond hereSecond with ⟨newSecond, _⟩ | oldSecond
        · rw [newFirst, newSecond]
        · exact absurd same.symm (other second rowSecond oldSecond)
      · rcases rows second rowSecond hereSecond with ⟨_, rfl⟩ | oldSecond
        · exact absurd same (other first row oldFirst)
        · exact tidy.unique first second row rowSecond oldFirst oldSecond same
    · rcases rows id row here with ⟨_, rfl⟩ | old
      · exact checked_stored validated
      · exact tidy.checked id row old
    · obtain ⟨home, there⟩ := tidy.housed id row here
      refine ⟨home, ?_⟩
      show (before.queues.insert fresh).get row.queueId = some home
      rw [found, if_neg (Nat.ne_of_lt (Table.get_lt there))]
      exact there

/-- A queue that a request did not delete is still there. -/
theorem QueueStep.stays {before after : Store} {queue : SqsQueue} {operation : Operation}
    {now : Int} {id : Nat} {row : QueueRow} (step : QueueStep before after queue operation now id)
    (was : before.queues.get id = some row)
    (kept : operation = .deleteQueue → id ≠ queue.id) :
    ∃ home, after.queues.get id = some home := by
  cases step with
  | same still => exact ⟨row, still.trans was⟩
  | deleted _ asked here => exact absurd here (kept asked)
  | configured _ set => exact ⟨_, set⟩
  | tagged _ set => exact ⟨_, set⟩
  | counted _ set => exact ⟨_, set⟩

theorem deadLetterQueue_row {store : Store} {queue dlq : SqsQueue} {max : Int}
    (target : deadLetterQueue store queue = some (dlq, max)) :
    ∃ row, store.queues.get dlq.id = some row ∧ dlq = queueFromRow dlq.id row := by
  unfold deadLetterQueue at target
  obtain ⟨⟨arn, limit⟩, _, rest⟩ := Option.bind_eq_some_iff.mp target
  obtain ⟨found, here, rest⟩ := Option.bind_eq_some_iff.mp rest
  cases rest
  obtain ⟨row, there, _, same⟩ := findQueue_row here
  exact ⟨row, there, same⟩

theorem tidy_called {before after : Store} {queue : SqsQueue} {operation : Operation} {now : Int}
    {response : Response} {name : String} (tidy : Tidy before)
    (found : getQueue before name = .ok queue)
    (called : operation.call before queue now = .ok (response, after)) : Tidy after := by
  have step := call_step_found found called
  have steps := step.queueRow
  obtain ⟨⟨home, homeHere, _⟩, queueChecked⟩ := tidy.served found
  refine ⟨fun id row here => ?_, fun first second row other hereFirst hereSecond same => ?_,
    fun id row here => (steps id).checked queueChecked (tidy.checked id) here,
    fun id row here => ?_⟩
  · obtain ⟨old, was, sameName⟩ := (steps id).name here
    exact sameName ▸ tidy.named id old was
  · obtain ⟨oldFirst, wasFirst, nameFirst⟩ := (steps first).name hereFirst
    obtain ⟨oldSecond, wasSecond, nameSecond⟩ := (steps second).name hereSecond
    exact tidy.unique _ _ _ _ wasFirst wasSecond (nameFirst.trans (same.trans nameSecond.symm))
  · -- The queue of the row was there before, and a request that deletes it deletes the row.
    have remains : ∀ old, before.messages.get id = some old → old.queueId = row.queueId →
        (operation = .deleteQueue → row.queueId ≠ queue.id) →
        ∃ home, after.queues.get row.queueId = some home := by
      intro old was same kept
      obtain ⟨home, there⟩ := tidy.housed id old was
      exact (steps row.queueId).stays (same ▸ there) kept
    cases (step.row id).origin here with
    | kept old visible was =>
      refine remains old was rfl fun asked same => ?_
      -- A deleted queue keeps no message.
      subst asked
      cases called
      have gone : (deleteQueueTx before queue).messages.get id = none := by
        show (before.messages.delete _).get id = none
        rw [Table.get_delete, was]
        simp only [Option.filter]
        rw [if_neg]
        simpa using same
      rw [gone] at here
      cases here
    | changed old timeout was asked =>
      exact remains old was rfl fun other => by rw [asked] at other; cases other
    | accepted input delay dedupId sequenceNumber _ _ asked =>
      exact (steps queue.id).stays homeHere fun other => by rw [asked] at other; cases other
    | delivered old options draw was asked =>
      exact remains old was rfl fun other => by rw [asked] at other; cases other
    | redriven old options draw dlq max was asked _ _ _ target =>
      obtain ⟨row, there, _⟩ := deadLetterQueue_row target
      exact (steps _).stays there fun other => by rw [asked] at other; cases other

theorem tidy_step {event : SqsEvent} (taken : event.Taken perform) (tidy : Tidy event.before) :
    Tidy event.after := by
  rcases taken_cases taken with ⟨_, _, same⟩ | ⟨_, _, _, _, _, _, created⟩ | ⟨_, _, _, served⟩
  · exact same ▸ tidy
  · exact tidy_created tidy created
  · obtain ⟨_, _, found⟩ := served.found
    exact tidy_called tidy found served.called

/-- **Every run of requests leaves the store tidy.** -/
theorem ServiceRun.tidy {history : List SqsEvent} {store : Store}
    (served : ServiceRun history store) : Tidy store :=
  served.invariant tidy_empty fun _ => tidy_step

/-! ### The kind of a queue -/

/-- The id is the id of a FIFO queue. -/
def FifoQueue (store : Store) (queueId : Nat) : Prop :=
  ∃ row, store.queues.get queueId = some row ∧ (queueFromRow queueId row).isFifo = true

theorem QueueStep.kind {before after : Store} {queue : SqsQueue} {operation : Operation}
    {now : Int} {id : Nat} (step : QueueStep before after queue operation now id)
    (same : ∀ row, before.queues.get queue.id = some row → row.attributes = queue.attributes)
    (fifo : FifoQueue after id) : FifoQueue before id := by
  obtain ⟨row, here, kind⟩ := fifo
  cases step with
  | same still => exact ⟨row, still ▸ here, kind⟩
  | deleted gone =>
    rw [gone] at here
    cases here
  | @configured old _ normalized was set _ queueHere validated allowed =>
    rw [set] at here
    cases here
    refine ⟨old, was, ?_⟩
    have sameKind : attrBoolOf (mergeAttributes queue.attributes normalized) "FifoQueue" =
        queue.isFifo := isFifo_merge rfl validated allowed
    show attrBoolOf old.attributes "FifoQueue" = true
    rw [same old (queueHere ▸ was)]
    exact sameKind.symm.trans kind
  | @tagged old _ was set =>
    rw [set] at here
    cases here
    exact ⟨old, was, kind⟩
  | @counted old _ was set =>
    rw [set] at here
    cases here
    exact ⟨old, was, kind⟩

/-- **No request turns a standard queue into a FIFO queue.** -/
theorem fifo_back {event : SqsEvent} {queueId : Nat} (taken : event.Taken perform)
    (tidy : Tidy event.before) (old : queueId < event.before.queues.next)
    (fifo : FifoQueue event.after queueId) : FifoQueue event.before queueId := by
  rcases taken_cases taken with ⟨_, _, same⟩ | ⟨_, _, _, _, _, _, created⟩ |
    ⟨queue, operation, response, served⟩
  · exact same ▸ fifo
  · obtain ⟨_, _, _, ⟨_, _, same⟩ | ⟨_, same⟩⟩ := createQueueTx_ok created
    · exact same ▸ fifo
    · obtain ⟨row, here, kind⟩ := fifo
      rw [same, Table.get_insert, if_neg old.ne] at here
      exact ⟨row, here, kind⟩
  · obtain ⟨_, _, found⟩ := served.found
    refine (served.step.queueRow queueId).kind (fun row here => ?_) fifo
    obtain ⟨home, there, attributes⟩ := (tidy.served found).1
    rw [here] at there
    cases there
    exact attributes

theorem fifo_along {start store : Store} {later : List SqsEvent} {queueId : Nat}
    (run : Run perform start later store) (tidy : Tidy start) (old : queueId < start.queues.next)
    (fifo : FifoQueue store queueId) : FifoQueue start queueId := by
  induction run with
  | start => exact fifo
  | @next history event run taken ih =>
    have tidyBefore : Tidy event.before := run.invariant tidy fun _ => tidy_step
    exact ih (fifo_back taken tidyBefore (Nat.lt_of_lt_of_le old (run_queues_next run)) fifo)

end External

end CloudTwin.Sqs
