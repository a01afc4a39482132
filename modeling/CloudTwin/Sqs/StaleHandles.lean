/-
**Stale receipt handles are inert.**

* `IssuedLast` — a handle is the one that the most recent receive of a message gave out, and no
  redrive has moved the message since.
* `ServiceRun.handled` — in every run, the handle that is stored with a message is a placeholder or
  was issued last.
* `stale_handles_inert` — a handle that was issued last for no stored message of a queue neither deletes nor
  changes a message of it.
-/

import CloudTwin.Sqs.Handles

namespace CloudTwin.Sqs

open Lib

set_option linter.unusedSectionVars false

section External

variable [external : External]

/-- The request received the message of the row from the queue and gave out the handle. -/
def Issued (event : SqsEvent) (id queueId : Nat) (handle : String) : Prop :=
  ∃ queue options response, Asked event queue (.receive options) ∧ queue.id = queueId ∧
    event.output = .ok response ∧
    ∃ delivery ∈ response.deliveries, delivery.row = id ∧ delivery.message.receiptHandle = handle

/-- **The most recent receive of the message gave out the handle**, and nothing has moved the
message since. -/
def IssuedLast (history : List SqsEvent) (id queueId : Nat) (handle : String) : Prop :=
  ∃ past event later, history = past ++ event :: later ∧ Issued event id queueId handle ∧
    ∀ other ∈ later, id ∉ rowsReturned other ∧ id ∉ rowsMoved other

theorem IssuedLast.next {history : List SqsEvent} {event : SqsEvent} {id queueId : Nat}
    {handle : String} (issued : IssuedLast history id queueId handle)
    (returned : id ∉ rowsReturned event) (moved : id ∉ rowsMoved event) :
    IssuedLast (history ++ [event]) id queueId handle := by
  obtain ⟨past, first, later, rfl, gave, quiet⟩ := issued
  refine ⟨past, first, later ++ [event], by simp, gave, fun other member => ?_⟩
  rcases List.mem_append.mp member with earlier | last
  · exact quiet other earlier
  · rw [List.mem_singleton.mp last]
    exact ⟨returned, moved⟩

theorem Response.Silent.quiet {event : SqsEvent} {id : Nat}
    (silent : ∀ response, event.output = .ok response → response.Silent id) :
    id ∉ rowsReturned event ∧ id ∉ rowsMoved event := by
  unfold rowsReturned rowsMoved
  cases answered : event.output with
  | error error => exact ⟨List.not_mem_nil, List.not_mem_nil⟩
  | ok response =>
    have quiet := silent response answered
    refine ⟨fun member => ?_, fun member => ?_⟩
    · obtain ⟨delivery, listed, same⟩ := List.mem_map.mp member
      exact quiet.notDelivered delivery listed same
    · obtain ⟨⟨row, dlq⟩, listed, same⟩ := List.mem_map.mp member
      exact quiet.notRedriven dlq (same ▸ listed)

/-- A stored message has a placeholder for a handle, or the handle that was issued last. -/
def Handled (history : List SqsEvent) (store : Store) : Prop :=
  ∀ id row, store.messages.get id = some row →
    (∃ draw, row.receiptHandle = pendingHandle draw) ∨
      IssuedLast history id row.queueId row.receiptHandle

theorem handled_step {history : List SqsEvent} {event : SqsEvent} (taken : event.Taken perform)
    (handled : Handled history event.before) : Handled (history ++ [event]) event.after := by
  intro id row here
  -- A request that does not touch the message leaves its handle issued last.
  have untouched : ∀ old : MessageRow, event.before.messages.get id = some old →
      (∀ response, event.output = .ok response → response.Silent id) →
      (∃ draw, old.receiptHandle = pendingHandle draw) ∨
        IssuedLast (history ++ [event]) id old.queueId old.receiptHandle := by
    intro old was silent
    obtain ⟨returned, moved⟩ := Response.Silent.quiet silent
    exact (handled id old was).imp_right fun issued => issued.next returned moved
  rcases taken_served taken with ⟨same, silent⟩ | ⟨queue, operation, response, served⟩
  · exact untouched row (same ▸ here) fun response answered => silent response answered id
  · have only : response.Silent id →
        ∀ other, event.output = .ok other → other.Silent id := by
      intro silent other answered
      rw [served.answered] at answered
      cases answered
      exact silent
    cases (served_row served id).origin here with
    | kept old visible was silent => exact untouched old was (only silent)
    | changed old timeout was _ _ _ silent => exact untouched old was (only silent)
    | accepted => exact Or.inl ⟨_, rfl⟩
    | redriven old options draw dlq max => exact Or.inl ⟨draw, redrivenRow_handle _ _ _ _⟩
    | delivered old options draw was asked home _ _ _ listed message =>
      obtain ⟨delivery, member, same⟩ := listed
      refine Or.inr ⟨history, event, [], rfl, ?_, fun other none => (List.not_mem_nil none).elim⟩
      refine ⟨queue, options, response, asked ▸ served.found, home.symm, served.answered, delivery,
        member, same, ?_⟩
      rw [message delivery member same, deliveredRow_handle]
      rfl

/-- **The stored handle is the last one issued.** -/
theorem ServiceRun.handled {history : List SqsEvent} {store : Store}
    (served : ServiceRun history store) : Handled history store :=
  served.induct (motive := Handled) (fun _ _ => nofun) fun _ _ _ taken _ => handled_step taken

/-! ### Well-formed handles -/

/-- Every handle that a receive gave out is well formed, for ever. -/
theorem issued_wellFormed (laws : UuidLaws external) {history : List SqsEvent} {store : Store}
    (served : ServiceRun history store) {event : SqsEvent} (member : event ∈ history)
    {id queueId : Nat} {handle : String} (issued : Issued event id queueId handle) :
    (parseReceiptHandle handle).isSome := by
  obtain ⟨past, later, rfl⟩ := List.append_of_mem member
  obtain ⟨run, taken, _⟩ := served.around
  obtain ⟨queue, options, response, asked, _, answered, delivery, listed, _, same⟩ := issued
  obtain ⟨_, row, draw, _, delivers⟩ := (served_of_asked taken asked answered).delivers listed
  obtain ⟨_, _, found⟩ := asked
  have idBar := (run.minted laws).noBar laws delivers.was
  have given : handle = newReceiptHandle queue.name row.messageId draw := by
    rw [← same, delivers.message]
    rfl
  rw [given, parse_newReceiptHandle laws (run.tidy.queueBar found) idBar]
  rfl

/-! ### Requests with a handle -/

/-- The requests that work on a message by its handle. -/
inductive ByHandle (name handle : String) : Request → Prop
  | delete : ByHandle name handle (.on name (.deleteMessage handle))
  | change (timeout : Int) : ByHandle name handle (.on name (.changeVisibility handle timeout))

section Request

variable {store : Store} {queue : SqsQueue} {name handle : String} {now : Int}

/-- A request by handle leaves a message of another queue, or with another handle, as it is. -/
theorem byHandle_row {request : Request} {id : Nat} {row : MessageRow}
    (found : getQueue store name = .ok queue) (byHandle : ByHandle name handle request)
    (here : store.messages.get id = some row) (other : hasHandle queue handle row = false) :
    (perform store { now, request }).2.messages.get id = some row := by
  cases byHandle with
  | delete =>
    rw [perform_on found, Operation.call]
    cases done : deleteMessageTx store queue handle with
    | error error => exact here
    | ok after =>
      show after.messages.get id = some row
      rw [deleteMessageTx_ok done, Table.get_delete, here]
      simp [other]
  | change timeout =>
    rw [perform_on found, Operation.call]
    cases done : changeVisibilityTx store queue handle timeout now with
    | error error => exact here
    | ok after =>
      obtain ⟨_, rfl⟩ := changeVisibilityTx_ok done
      show (Table.update _ _ _).get id = some row
      rw [Table.get_update, here]
      simp [other]

theorem select_unmatched
    (none : ∀ id row, store.messages.get id = some row → hasHandle queue handle row = false) :
    store.messages.select (hasHandle queue handle) = [] := by
  refine List.eq_nil_iff_forall_not_mem.mpr fun entry member => ?_
  obtain ⟨here, matched⟩ := (Table.mem_select _ _ entry.1 entry.2).mp member
  rw [none entry.1 entry.2 here] at matched
  cases matched

/-- DeleteMessage with a handle that no message of the queue has. -/
theorem delete_unmatched (found : getQueue store name = .ok queue)
    (none : ∀ id row, store.messages.get id = some row → hasHandle queue handle row = false) :
    perform store { now, request := .on name (.deleteMessage handle) } =
      (if handle.isEmpty then .error (.missingParameter "ReceiptHandle")
        else if (parseReceiptHandle handle).isNone then .error (.receiptHandleInvalid handle)
        else .ok .done, store) := by
  rw [perform_on found, Operation.call, deleteMessageTx]
  by_cases empty : handle.isEmpty = true
  · simp [empty, settle, bind, Except.bind]
  · simp only [empty, select_unmatched none, List.length_nil, true_and]
    by_cases malformed : (parseReceiptHandle handle).isNone = true
    · simp [malformed, settle, bind, Except.bind]
    · rw [Table.delete_eq_self none]
      simp [malformed, settle, bind, Except.bind, pure, Except.pure]

/-- ChangeMessageVisibility with a handle that no message of the queue has. -/
theorem change_unmatched {timeout : Int} (found : getQueue store name = .ok queue)
    (none : ∀ id row, store.messages.get id = some row → hasHandle queue handle row = false) :
    ∃ error, perform store { now, request := .on name (.changeVisibility handle timeout) } =
      (.error error, store) := by
  rw [perform_on found, Operation.call]
  cases done : changeVisibilityTx store queue handle timeout now with
  | error error => exact ⟨error, rfl⟩
  | ok after =>
    rw [changeVisibilityTx] at done
    simp only [select_unmatched none, List.length_nil, Nat.lt_irrefl, if_false] at done
    repeat' split at done
    all_goals cases done

end Request

/-! ### Runs -/

/-- **A handle is inert** unless it was issued last for a stored message of the queue. -/
structure Inert (history : List SqsEvent) (store : Store) (name : String) (queue : SqsQueue)
    (handle : String) : Prop where
  /-- Only a message of the queue for which the handle was issued last is removed or changed. -/
  only : ∀ now request id row, ByHandle name handle request →
    store.messages.get id = some row →
    (perform store { now, request }).2.messages.get id ≠ some row →
    row.queueId = queue.id ∧ IssuedLast history id queue.id handle
  /-- If there is none, the store stays as it is: a well-formed handle is accepted in silence. -/
  deleted : (∀ id row, store.messages.get id = some row → row.queueId = queue.id →
      ¬ IssuedLast history id queue.id handle) →
    ∀ now, (perform store { now, request := .on name (.deleteMessage handle) }).2 = store ∧
      if (parseReceiptHandle handle).isSome then
        (perform store { now, request := .on name (.deleteMessage handle) }).1 = .ok .done
      else ∃ error,
        (perform store { now, request := .on name (.deleteMessage handle) }).1 = .error error
  /-- If there is none, a change of visibility fails. -/
  changed : (∀ id row, store.messages.get id = some row → row.queueId = queue.id →
      ¬ IssuedLast history id queue.id handle) →
    ∀ now timeout, ∃ error,
      perform store { now, request := .on name (.changeVisibility handle timeout) } =
        (.error error, store)
  /-- A handle that was ever issued is well formed. -/
  wellFormed : ∀ event ∈ history, ∀ id queueId, Issued event id queueId handle →
    (parseReceiptHandle handle).isSome

theorem parse_empty : parseReceiptHandle "" = none := by
  decide

/-- **Stale receipt handles are inert.** In every run, for every queue and every handle that is not
a guessed placeholder. -/
theorem stale_handles_inert (laws : UuidLaws external) {history : List SqsEvent} {store : Store}
    {name handle : String} {queue : SqsQueue} (served : ServiceRun history store)
    (found : getQueue store name = .ok queue) (unguessed : ∀ draw, handle ≠ pendingHandle draw) :
    Inert history store name queue handle := by
  -- The handle a message has is the one that was issued last for it.
  have current : ∀ id row, store.messages.get id = some row → hasHandle queue handle row = true →
      row.queueId = queue.id ∧ IssuedLast history id queue.id handle := by
    intro id row here matched
    simp only [hasHandle, Bool.and_eq_true, beq_iff_eq] at matched
    obtain ⟨home, rfl⟩ := matched
    refine ⟨home, ?_⟩
    rcases served.handled id row here with ⟨draw, pending⟩ | issued
    · exact absurd pending (unguessed draw)
    · exact home ▸ issued
  have unmatched : (∀ id row, store.messages.get id = some row → row.queueId = queue.id →
      ¬ IssuedLast history id queue.id handle) →
      ∀ id row, store.messages.get id = some row → hasHandle queue handle row = false := by
    intro stale id row here
    by_contra matched
    obtain ⟨home, issued⟩ := current id row here (Bool.not_eq_false _ ▸ matched)
    exact stale id row here home issued
  refine ⟨fun now request id row byHandle here touched => ?_, fun stale now => ?_,
    fun stale now timeout => change_unmatched found (unmatched stale),
    fun event member id queueId issued => issued_wellFormed laws served member issued⟩
  · refine current id row here ?_
    by_contra other
    exact touched (byHandle_row found byHandle here (Bool.not_eq_true _ ▸ other))
  · rw [delete_unmatched found (unmatched stale)]
    refine ⟨rfl, ?_⟩
    by_cases empty : handle.isEmpty = true
    · rw [String.isEmpty_iff.mp empty, parse_empty]
      exact ⟨_, rfl⟩
    · cases parsed : parseReceiptHandle handle with
      | none => exact ⟨.receiptHandleInvalid handle, by simp [empty]⟩
      | some messageId => simp [empty]

end External

section Sample

attribute [local instance] External.sample

/-- The message is received again once its lease has ended. -/
def sampleAgain : List Input :=
  [sampleCreate 0, sampleSend 0, sampleReceive 0, sampleReceive 31000]

/-- The handle that the message has. -/
def sampleHandle (store : Store) : Option String :=
  (store.messages.get 1).map MessageRow.receiptHandle

/-- The handle of the first receive is inert after the second one. -/
theorem stale_handles_inert_sample :
    ∃ handle current queue, sampleHandle sampleFirst.after = some handle ∧
      sampleHandle (Run.final perform Store.empty sampleAgain) = some current ∧ handle ≠ current ∧
      Inert (Run.trace perform Store.empty sampleAgain) (Run.final perform Store.empty sampleAgain)
        "orders" queue handle := by
  have served : ServiceRun (Run.trace perform Store.empty sampleAgain)
      (Run.final perform Store.empty sampleAgain) := ServiceRun.of_inputs sampleAgain (by decide)
  obtain ⟨queue, found⟩ : ∃ queue,
      (getQueue (Run.final perform Store.empty sampleAgain) "orders").toOption = some queue :=
    Option.isSome_iff_exists.mp (by decide)
  refine ⟨newReceiptHandle "orders" (External.uuid 0) 2,
    newReceiptHandle "orders" (External.uuid 0) 4, queue, rfl, rfl, ?_, ?_⟩
  · intro same
    have draws := newReceiptHandle_injective sample_laws (by decide) (sample_laws.noBar 0) (by decide)
      (sample_laws.noBar 0) same
    cases draws.2.2
  · exact stale_handles_inert sample_laws served (ok_of_toOption found)
      fun draw => newReceiptHandle_ne_pending _ _ _ draw

end Sample

end CloudTwin.Sqs
