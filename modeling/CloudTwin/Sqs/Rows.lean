/-
**What a request does to a message.**

A message is its row: the row id is given out once and never again. `RowStep` lists everything a
request can do to a row, with the condition under which it does so, and `served_row` says that
there is nothing else. Whatever is claimed about a message over a whole run is read off `RowStep`.

* `SendStep` and `sendTx_step` — a send stores the message in the next row, or it is a duplicate
  and changes nothing.
* `CallStep` — the second call of a request, operation by operation.
* `RowStep` and `served_row` — what it can do to one row.
-/

import CloudTwin.Sqs.Service
import CloudTwin.Sqs.Scan

namespace CloudTwin.Sqs

open Lib

set_option linter.unusedSectionVars false

section External

variable [External]

/-! ### Refresh -/

@[simp] theorem refresh_queues (store : Store) (queue : SqsQueue) (now : Int) :
    (refresh store queue now).queues = store.queues := rfl

@[simp] theorem refresh_drawn (store : Store) (queue : SqsQueue) (now : Int) :
    (refresh store queue now).drawn = store.drawn := rfl

@[simp] theorem refresh_next (store : Store) (queue : SqsQueue) (now : Int) :
    (refresh store queue now).messages.next = store.messages.next := rfl

/-- A refresh drops an expired row and sets the flag of another. -/
theorem refresh_get (store : Store) (queue : SqsQueue) (now : Int) (id : Nat) :
    (store.messages.get id = none ∧ (refresh store queue now).messages.get id = none) ∨
    ∃ row, store.messages.get id = some row ∧
      ((expired queue now row = true ∧ (refresh store queue now).messages.get id = none) ∨
        (expired queue now row = false ∧ ∃ visible,
          (refresh store queue now).messages.get id = some { row with visible })) := by
  have unfolded : (refresh store queue now).messages.get id =
      ((store.messages.get id).filter fun row => !expired queue now row).map fun row =>
        if (row.queueId == queue.id && row.visible != decide (row.visibleAt ≤ now)) = true then
          { row with visible := decide (row.visibleAt ≤ now) }
        else row := by
    unfold refresh
    rw [Table.get_update, Table.get_delete]
  rw [unfolded]
  cases here : store.messages.get id with
  | none => exact Or.inl ⟨rfl, rfl⟩
  | some row =>
    refine Or.inr ⟨row, rfl, ?_⟩
    cases late : expired queue now row with
    | true => exact Or.inl ⟨rfl, by simp [Option.filter, late]⟩
    | false =>
      refine Or.inr ⟨rfl, ?_⟩
      simp only [Option.filter, late, Bool.not_false, if_true, Option.map_some, Option.some.injEq]
      split
      · exact ⟨_, rfl⟩
      · exact ⟨row.visible, rfl⟩

/-- A row of the refreshed table is a row of the table, up to its flag. -/
theorem refresh_back {store : Store} {queue : SqsQueue} {now : Int} {id : Nat} {row : MessageRow}
    (here : (refresh store queue now).messages.get id = some row) :
    ∃ old, store.messages.get id = some old ∧ expired queue now old = false ∧
      row = { old with visible := row.visible } := by
  rcases refresh_get store queue now id with ⟨_, gone⟩ | ⟨old, was, ⟨_, gone⟩ | ⟨alive, _, now⟩⟩
  · rw [gone] at here
    cases here
  · rw [gone] at here
    cases here
  · rw [now] at here
    cases here
    exact ⟨old, was, alive, rfl⟩

/-! ### SendMessage -/

/-- The store with one more message, its id and its placeholder being the next two draws. -/
def accept (store : Store) (queueId : Nat) (input : SendInput) (now visibleAt : Int)
    (dedupId sequenceNumber : Option String) : Store :=
  { store with
    messages := store.messages.insert (newMessage queueId (External.uuid store.drawn)
      (pendingHandle (store.drawn + 1)) input now visibleAt dedupId sequenceNumber)
    drawn := store.drawn + 2 }

/-- The store after `fifo_seq = fifo_seq + 1`. -/
def raiseSeq (store : Store) (queueId : Nat) : Store :=
  { store with queues := store.queues.modify queueId fun row =>
    { row with fifoSeq := row.fifoSeq + 1 } }

/-- **What a send can do.** -/
inductive SendStep (store : Store) (queue : SqsQueue) (input : SendInput) (now : Int) :
    Sent → Store → Prop
  | standard {delay : Int} (plain : queue.isFifo = false)
      (checked : checkSend queue input = .ok delay) :
      SendStep store queue input now
        { outcome := sendOutcome input (External.uuid store.drawn) none
          row := some store.messages.next }
        (accept (refresh store queue now) queue.id input now (now + delay * 1000) none none)
  | duplicate {dedupId : String} {record : DedupRow} (fifo : queue.isFifo = true)
      (effective : effectiveDedupId queue input = .ok dedupId)
      (known : findDedup (refresh store queue now) queue.id dedupId now = some record) :
      SendStep store queue input now
        { outcome := sendOutcome input record.messageId (some record.sequenceNumber), row := none }
        store
  | fifo {delay : Int} {dedupId sequenceNumber : String} {row : QueueRow}
      (fifo : queue.isFifo = true) (checked : checkSend queue input = .ok delay)
      (effective : effectiveDedupId queue input = .ok dedupId)
      (unknown : findDedup (refresh store queue now) queue.id dedupId now = none)
      (found : store.queues.get queue.id = some row)
      (numbered : sequenceNumberOf (row.fifoSeq + 1) = .ok sequenceNumber) :
      SendStep store queue input now
        { outcome := sendOutcome input (External.uuid store.drawn) (some sequenceNumber)
          row := some store.messages.next }
        { accept (raiseSeq (refresh store queue now) queue.id) queue.id input now
            (now + delay * 1000) (some dedupId) (some sequenceNumber) with
          dedup := replaceDedup (refresh store queue now).dedup
            { queueId := queue.id, dedupId, messageId := External.uuid store.drawn, sequenceNumber
              expiresAt := now + dedupWindowMs } }

theorem insertMessage_ok {store after : Store} {queueId : Nat} {messageId : String}
    {input : SendInput} {now visibleAt : Int} {dedupId sequenceNumber : Option String} {row : Nat}
    (done : insertMessage store queueId messageId input now visibleAt dedupId sequenceNumber =
      .ok (row, after)) :
    row = store.messages.next ∧ after = { store with
      messages := store.messages.insert (newMessage queueId messageId (pendingHandle store.drawn)
        input now visibleAt dedupId sequenceNumber)
      drawn := store.drawn + 1 } := by
  unfold insertMessage at done
  simp only at done
  split at done
  · cases done
  · cases done
    exact ⟨rfl, rfl⟩

theorem sendTx_step {store after : Store} {queue : SqsQueue} {input : SendInput} {now : Int}
    {sent : Sent} (done : sendTx store queue input now = .ok (sent, after)) :
    SendStep store queue input now sent after := by
  unfold sendTx at done
  obtain ⟨delay, checked, rest⟩ := bind_ok done
  cases kind : queue.isFifo with
  | false =>
    simp only [kind, Bool.false_eq_true, if_false] at rest
    unfold sendStandard at rest
    obtain ⟨⟨row, stored⟩, inserted, answered⟩ := bind_ok rest
    obtain ⟨rfl, rfl⟩ := insertMessage_ok inserted
    cases answered
    exact SendStep.standard kind checked
  | true =>
    simp only [kind, if_true] at rest
    unfold sendFifo at rest
    obtain ⟨dedupId, effective, rest⟩ := bind_ok rest
    cases known : findDedup (refresh store queue now) queue.id dedupId now with
    | some record =>
      rw [known] at rest
      cases rest
      exact SendStep.duplicate kind effective known
    | none =>
      rw [known] at rest
      simp only at rest
      unfold sendFifoNew at rest
      obtain ⟨⟨seq, raised⟩, counted, rest⟩ := bind_ok rest
      obtain ⟨sequenceNumber, numbered, rest⟩ := bind_ok rest
      obtain ⟨⟨row, stored⟩, inserted, answered⟩ := bind_ok rest
      obtain ⟨rfl, rfl⟩ := insertMessage_ok inserted
      cases answered
      unfold nextFifoSeq at counted
      split at counted
      · rename_i found
        cases counted
        exact SendStep.fifo kind checked effective known found numbered
      · cases counted

/-! ### Rows -/

/-- The response reports nothing about the row. -/
structure Response.Silent (response : Response) (id : Nat) : Prop where
  notDelivered : ∀ delivery ∈ response.deliveries, delivery.row ≠ id
  notRedriven : ∀ dlq, (id, dlq) ∉ response.redriven
  notAccepted : response.accepted ≠ some id

theorem silent_done (id : Nat) : Response.done.Silent id :=
  ⟨fun _ listed => (List.not_mem_nil listed).elim, fun _ => List.not_mem_nil, nofun⟩

theorem silent_attributes (values : BTreeMap String) (id : Nat) :
    (Response.attributes values).Silent id :=
  ⟨fun _ listed => (List.not_mem_nil listed).elim, fun _ => List.not_mem_nil, nofun⟩

/-- **Everything a request can do to a row.** -/
inductive RowStep (before after : Store) (queue : SqsQueue) (operation : Operation) (now : Int)
    (response : Response) (id : Nat) : Prop
  | absent (was : before.messages.get id = none) (still : after.messages.get id = none)
      (silent : response.Silent id)
  | kept {row : MessageRow} {visible : Bool} (was : before.messages.get id = some row)
      (still : after.messages.get id = some { row with visible }) (silent : response.Silent id)
  | expired {row : MessageRow} (was : before.messages.get id = some row)
      (gone : after.messages.get id = none) (late : expired queue now row = true)
      (silent : response.Silent id)
  | purged {row : MessageRow} (was : before.messages.get id = some row)
      (gone : after.messages.get id = none)
      (asked : operation = .purgeQueue ∨ operation = .deleteQueue)
      (here : row.queueId = queue.id) (silent : response.Silent id)
  | deleted {row : MessageRow} (was : before.messages.get id = some row)
      (gone : after.messages.get id = none) (asked : operation = .deleteMessage row.receiptHandle)
      (here : row.queueId = queue.id) (silent : response.Silent id)
  | changed {row : MessageRow} {timeout : Int} (was : before.messages.get id = some row)
      (set : after.messages.get id = some
        { row with visibleAt := now + timeout * 1000, visible := decide (timeout = 0) })
      (asked : operation = .changeVisibility row.receiptHandle timeout)
      (valid : 0 ≤ timeout ∧ timeout ≤ maxVisibility) (here : row.queueId = queue.id)
      (silent : response.Silent id)
  | accepted {input : SendInput} {delay : Int} {dedupId sequenceNumber : Option String}
      (was : before.messages.get id = none) (fresh : id = before.messages.next)
      (stored : after.messages.get id = some (newMessage queue.id (External.uuid before.drawn)
        (pendingHandle (before.drawn + 1)) input now (now + delay * 1000) dedupId sequenceNumber))
      (asked : operation = .send input) (checked : checkSend queue input = .ok delay)
      (reported : response.accepted = some id) (drawn : after.drawn = before.drawn + 2)
      (silent : response.deliveries = [] ∧ response.redriven = [])
  | delivered {row : MessageRow} {options : ReceiveOptions} {draw : Nat}
      (was : before.messages.get id = some row)
      (set : after.messages.get id = some (deliveredRow (pollOf before queue options now)
        (newReceiptHandle queue.name row.messageId draw) row))
      (asked : operation = .receive options) (here : row.queueId = queue.id)
      (due : row.visibleAt ≤ now) (alive : expired queue now row = false)
      (drawn : before.drawn ≤ draw ∧ draw + 2 ≤ after.drawn)
      (within : ∀ dlq max, deadLetterQueue before queue = some (dlq, max) →
        (row.receiveCount : Int) < max)
      (listed : ∃ delivery ∈ response.deliveries, delivery.row = id)
      (message : ∀ delivery ∈ response.deliveries, delivery.row = id → delivery.message =
        receivedMessage (pollOf before queue options now)
          (newReceiptHandle queue.name row.messageId draw) row)
      (notRedriven : ∀ dlq, (id, dlq) ∉ response.redriven)
      (notAccepted : response.accepted = none)
  | redriven {row : MessageRow} {options : ReceiveOptions} {draw : Nat} {dlq : SqsQueue} {max : Int}
      (was : before.messages.get id = some row)
      (set : after.messages.get id = some (redrivenRow (pollOf before queue options now) dlq
        (pendingHandle draw) row))
      (asked : operation = .receive options) (here : row.queueId = queue.id)
      (due : row.visibleAt ≤ now) (alive : expired queue now row = false)
      (drawn : before.drawn ≤ draw ∧ draw + 1 ≤ after.drawn)
      (target : deadLetterQueue before queue = some (dlq, max)) (reached : max ≤ row.receiveCount)
      (listed : (id, dlq.id) ∈ response.redriven)
      (notDelivered : ∀ delivery ∈ response.deliveries, delivery.row ≠ id)
      (notAccepted : response.accepted = none)

section Steps

variable {before after : Store} {queue : SqsQueue} {operation : Operation} {now : Int}
  {response : Response} {id : Nat}

/-- A call that keeps the table of messages keeps every row. -/
theorem RowStep.of_same (same : after.messages.get id = before.messages.get id)
    (silent : response.Silent id) : RowStep before after queue operation now response id := by
  cases was : before.messages.get id with
  | none => exact RowStep.absent was (same.trans was) silent
  | some row => exact RowStep.kept was (same.trans was) silent

theorem RowStep.of_refresh
    (same : after.messages.get id = (refresh before queue now).messages.get id)
    (silent : response.Silent id) : RowStep before after queue operation now response id := by
  rcases refresh_get before queue now id with ⟨was, none⟩ | ⟨row, was, ⟨late, gone⟩ | ⟨_, _, now⟩⟩
  · exact RowStep.absent was (same.trans none) silent
  · exact RowStep.expired was (same.trans gone) late silent
  · exact RowStep.kept was (same.trans now) silent

theorem purge_row (asked : operation = .purgeQueue ∨ operation = .deleteQueue)
    (same : after.messages = before.messages.delete fun _ row => row.queueId == queue.id)
    (silent : response.Silent id) : RowStep before after queue operation now response id := by
  have found : after.messages.get id =
      (before.messages.get id).filter fun row => !(row.queueId == queue.id) := by
    rw [same, Table.get_delete]
  cases was : before.messages.get id with
  | none => exact RowStep.absent was (by rw [found, was]; rfl) silent
  | some row =>
    by_cases here : row.queueId = queue.id
    · exact RowStep.purged was (by rw [found, was]; simp [Option.filter, here]) asked here silent
    · exact RowStep.of_same (by rw [found, was]; simp [Option.filter, here]) silent

theorem deleteMessageTx_ok {handle : String}
    (done : deleteMessageTx before queue handle = .ok after) :
    after = { before with
      messages := before.messages.delete fun _ row => hasHandle queue handle row } := by
  unfold deleteMessageTx at done
  split at done
  · cases done
  · simp only at done
    split at done
    · cases done
    · cases done
      rfl

theorem deleteMessage_row {handle : String} (asked : operation = .deleteMessage handle)
    (same : after.messages = before.messages.delete fun _ row => hasHandle queue handle row)
    (silent : response.Silent id) : RowStep before after queue operation now response id := by
  have found : after.messages.get id =
      (before.messages.get id).filter fun row => !hasHandle queue handle row := by
    rw [same, Table.get_delete]
  cases was : before.messages.get id with
  | none => exact RowStep.absent was (by rw [found, was]; rfl) silent
  | some row =>
    cases matched : hasHandle queue handle row with
    | true =>
      have parts := matched
      simp only [hasHandle, Bool.and_eq_true, beq_iff_eq] at parts
      exact RowStep.deleted was (by rw [found, was]; simp [Option.filter, matched])
        (by rw [asked, parts.2]) parts.1 silent
    | false => exact RowStep.of_same (by rw [found, was]; simp [Option.filter, matched]) silent

theorem changeVisibilityTx_ok {handle : String} {timeout : Int}
    (done : changeVisibilityTx before queue handle timeout now = .ok after) :
    (0 ≤ timeout ∧ timeout ≤ maxVisibility) ∧ after = { before with
      messages := before.messages.update (fun _ row => hasHandle queue handle row) fun row =>
        { row with visibleAt := now + timeout * 1000, visible := decide (timeout = 0) } } := by
  unfold changeVisibilityTx at done
  split at done
  · cases done
  · by_cases valid : 0 ≤ timeout ∧ timeout ≤ maxVisibility
    · rw [if_neg (not_not.mpr valid)] at done
      split at done
      · cases done
        exact ⟨valid, rfl⟩
      · split at done
        · cases done
        · split at done
          · split at done <;> cases done
          · cases done
    · rw [if_pos valid] at done
      cases done

theorem changeVisibility_row {handle : String} {timeout : Int}
    (asked : operation = .changeVisibility handle timeout)
    (valid : 0 ≤ timeout ∧ timeout ≤ maxVisibility)
    (same : after.messages =
      before.messages.update (fun _ row => hasHandle queue handle row) fun row =>
        { row with visibleAt := now + timeout * 1000, visible := decide (timeout = 0) })
    (silent : response.Silent id) : RowStep before after queue operation now response id := by
  have found : after.messages.get id =
      (before.messages.get id).map fun row => if hasHandle queue handle row = true then
        { row with visibleAt := now + timeout * 1000, visible := decide (timeout = 0) } else row := by
    rw [same, Table.get_update]
  cases was : before.messages.get id with
  | none => exact RowStep.absent was (by rw [found, was]; rfl) silent
  | some row =>
    cases matched : hasHandle queue handle row with
    | true =>
      have parts := matched
      simp only [hasHandle, Bool.and_eq_true, beq_iff_eq] at parts
      exact RowStep.changed was (by rw [found, was]; simp [matched]) (by rw [asked, parts.2]) valid
        parts.1 silent
    | false => exact RowStep.of_same (by rw [found, was]; simp [matched]) silent

theorem send_row {input : SendInput} {sent : Sent} (asked : operation = .send input)
    (step : SendStep before queue input now sent after) :
    RowStep before after queue operation now (.sent sent) id := by
  -- A new row: the one at the next id is the message, every other one is only refreshed.
  have inserted : ∀ (delay : Int) (dedupId sequenceNumber : Option String) (outcome : SendOutcome)
      (stored : Store), checkSend queue input = .ok delay →
      stored.messages = (refresh before queue now).messages.insert (newMessage queue.id
        (External.uuid before.drawn) (pendingHandle (before.drawn + 1)) input now
        (now + delay * 1000) dedupId sequenceNumber) → stored.drawn = before.drawn + 2 →
      RowStep before stored queue operation now
        (.sent { outcome, row := some before.messages.next }) id := by
    intro delay dedupId sequenceNumber outcome stored checked same drawn
    have found := Table.get_insert (refresh before queue now).messages (newMessage queue.id
      (External.uuid before.drawn) (pendingHandle (before.drawn + 1)) input now
      (now + delay * 1000) dedupId sequenceNumber) id
    rw [← same, refresh_next] at found
    by_cases new : id = before.messages.next
    · rw [if_pos new] at found
      exact RowStep.accepted (new ▸ Table.get_next _) new found asked checked (by rw [new]; rfl)
        drawn ⟨rfl, rfl⟩
    · rw [if_neg new] at found
      refine RowStep.of_refresh found ⟨fun _ listed => (List.not_mem_nil listed).elim,
        fun _ => List.not_mem_nil, fun same => new ?_⟩
      exact (Option.some.inj same).symm
  cases step with
  | standard plain checked => exact inserted _ none none _ _ checked rfl rfl
  | duplicate => exact RowStep.of_same rfl ⟨fun _ listed => (List.not_mem_nil listed).elim,
      fun _ => List.not_mem_nil, nofun⟩
  | fifo _ checked _ _ _ numbered =>
    exact inserted _ (some _) (some _) _ _ checked rfl rfl

theorem receiveTx_row {options : ReceiveOptions} {received : Received}
    (asked : operation = .receive options)
    (done : receiveTx before queue options now = .ok (received, after)) :
    RowStep before after queue operation now (.received received) id := by
  obtain ⟨seen, unseen, final, scanned, rfl, rfl⟩ := receiveTx_scanned done
  -- A row that had its turn is a due row of the queue, up to the flag, which the turn overwrites.
  have original : ∀ row, (id, row) ∈ seen → ∃ old visible, before.messages.get id = some old ∧
      expired queue now old = false ∧ row = { old with visible } ∧ old.queueId = queue.id ∧
      old.visibleAt ≤ now := by
    intro row turned
    have listed : (id, row) ∈ candidates (refresh before queue now) queue now :=
      scanned.whole ▸ List.mem_append_left _ turned
    obtain ⟨found, due⟩ := (Table.mem_select _ _ _ _).mp listed
    obtain ⟨old, was, alive, same⟩ := refresh_back found
    rw [same] at due
    simp only [Bool.and_eq_true, beq_iff_eq, decide_eq_true_eq] at due
    exact ⟨old, row.visible, was, alive, same, due.1, due.2⟩
  cases scanned.progress.fates id with
  | left same notDelivered notRedriven =>
    exact RowStep.of_refresh same ⟨notDelivered, notRedriven, nofun⟩
  | delivered _ turned set drawn within listed message notRedriven =>
    obtain ⟨old, visible, was, alive, rfl, here, due⟩ := original _ turned
    exact RowStep.delivered was set asked here due alive drawn within listed message notRedriven rfl
  | redriven _ turned set drawn target reached listed notDelivered =>
    obtain ⟨old, visible, was, alive, rfl, here, due⟩ := original _ turned
    exact RowStep.redriven was set asked here due alive drawn target reached listed notDelivered rfl

/-! ### Requests -/

theorem getAttributesTx_ok {names : List String} {values : BTreeMap String}
    (done : getAttributesTx before queue names now = .ok (values, after)) :
    after = refresh before queue now := by
  unfold getAttributesTx at done
  split at done
  · cases done
  · cases done
    rfl

/-- The queue that a poll reads again is the one the request has read. -/
theorem requireQueue_again {store : Store} {name : String} {queue : SqsQueue}
    (found : getQueue store name = .ok queue) : requireQueue store queue.name = .ok queue := by
  have first := getQueue_found found
  obtain ⟨row, _, named, same⟩ := findQueue_row first
  have sameName : queue.name = queueNameOf name := by
    rw [same, queueFromRow_name, named]
  rw [requireQueue, sameName, first]

/-- **What the second call of a request can do**, with the queue it works on. -/
inductive CallStep (before : Store) (queue : SqsQueue) (now : Int) :
    Operation → Response → Store → Prop
  | deleteQueue : CallStep before queue now .deleteQueue .done (deleteQueueTx before queue)
  | purgeQueue : CallStep before queue now .purgeQueue .done (purgeQueueTx before queue)
  | getQueueAttributes (names : List String) (values : BTreeMap String) :
      CallStep before queue now (.getQueueAttributes names) (.attributes values)
        (refresh before queue now)
  | setQueueAttributes (attributes normalized : BTreeMap String)
      (validated : validateAttributes before queue.name attributes false = .ok normalized)
      (allowed : ∀ value, normalized["FifoQueue"]? = some value →
        (value == "true") = queue.isFifo) :
      CallStep before queue now (.setQueueAttributes attributes) .done { before with
        queues := before.queues.modify queue.id fun row =>
          { row with
            attributes := mergeAttributes queue.attributes normalized, modifiedTs := now / 1000 } }
  | tagQueue (more : BTreeMap String) (few : (extendTags queue.tags more).size ≤ 50) :
      CallStep before queue now (.tagQueue more) .done { before with
        queues := before.queues.modify queue.id fun row =>
          { row with tags := extendTags queue.tags more } }
  | untagQueue (keys : List String) (few : (removeTags queue.tags keys).size ≤ 50) :
      CallStep before queue now (.untagQueue keys) .done { before with
        queues := before.queues.modify queue.id fun row =>
          { row with tags := removeTags queue.tags keys } }
  | send (input : SendInput) (result : Sent) (after : Store)
      (step : SendStep before queue input now result after) :
      CallStep before queue now (.send input) (.sent result) after
  | receive (options : ReceiveOptions) (result : Received) (after : Store)
      (done : receiveTx before queue options now = .ok (result, after)) :
      CallStep before queue now (.receive options) (.received result) after
  | deleteMessage (handle : String) :
      CallStep before queue now (.deleteMessage handle) .done { before with
        messages := before.messages.delete fun _ row => hasHandle queue handle row }
  | changeVisibility (handle : String) (timeout : Int)
      (valid : 0 ≤ timeout ∧ timeout ≤ maxVisibility) :
      CallStep before queue now (.changeVisibility handle timeout) .done { before with
        messages := before.messages.update (fun _ row => hasHandle queue handle row) fun row =>
          { row with visibleAt := now + timeout * 1000, visible := decide (timeout = 0) } }

/-- A call works on the queue that was read, or, a receive, on the queue it reads again. -/
theorem call_step (called : operation.call before queue now = .ok (response, after)) :
    ∃ working, CallStep before working now operation response after ∧
      (working = queue ∨ ∃ options, operation = .receive options ∧
        requireQueue before queue.name = .ok working) := by
  cases operation with
  | deleteQueue =>
    cases called
    exact ⟨queue, .deleteQueue, Or.inl rfl⟩
  | purgeQueue =>
    cases called
    exact ⟨queue, .purgeQueue, Or.inl rfl⟩
  | getQueueAttributes names =>
    obtain ⟨⟨values, stored⟩, done, rest⟩ := bind_ok called
    cases rest
    cases getAttributesTx_ok done
    exact ⟨queue, .getQueueAttributes names values, Or.inl rfl⟩
  | setQueueAttributes attributes =>
    obtain ⟨stored, done, rest⟩ := bind_ok called
    obtain ⟨normalized, validated, allowed, rfl⟩ := setQueueAttributesTx_ok done
    cases rest
    exact ⟨queue, .setQueueAttributes attributes normalized validated allowed, Or.inl rfl⟩
  | tagQueue more =>
    obtain ⟨stored, done, rest⟩ := bind_ok called
    obtain ⟨few, rfl⟩ := writeTags_ok done
    cases rest
    exact ⟨queue, .tagQueue more few, Or.inl rfl⟩
  | untagQueue keys =>
    obtain ⟨stored, done, rest⟩ := bind_ok called
    obtain ⟨few, rfl⟩ := writeTags_ok done
    cases rest
    exact ⟨queue, .untagQueue keys few, Or.inl rfl⟩
  | send input =>
    obtain ⟨⟨sent, stored⟩, done, rest⟩ := bind_ok called
    cases rest
    exact ⟨queue, .send input sent _ (sendTx_step done), Or.inl rfl⟩
  | receive options =>
    obtain ⟨_, _, rest⟩ := bind_ok called
    obtain ⟨⟨received, stored⟩, polled, rest⟩ := bind_ok rest
    cases rest
    obtain ⟨working, again, done⟩ := bind_ok polled
    exact ⟨working, .receive options received _ done, Or.inr ⟨options, rfl, again⟩⟩
  | deleteMessage handle =>
    obtain ⟨stored, done, rest⟩ := bind_ok called
    cases deleteMessageTx_ok done
    cases rest
    exact ⟨queue, .deleteMessage handle, Or.inl rfl⟩
  | changeVisibility handle timeout =>
    obtain ⟨stored, done, rest⟩ := bind_ok called
    obtain ⟨valid, rfl⟩ := changeVisibilityTx_ok done
    cases rest
    exact ⟨queue, .changeVisibility handle timeout valid, Or.inl rfl⟩

/-- A call that directly follows the read of its queue works on that queue. -/
theorem call_step_found {name : String} (found : getQueue before name = .ok queue)
    (called : operation.call before queue now = .ok (response, after)) :
    CallStep before queue now operation response after := by
  obtain ⟨working, step, rfl | ⟨options, _, again⟩⟩ := call_step called
  · exact step
  · rw [requireQueue_again found] at again
    cases again
    exact step

theorem CallStep.row (step : CallStep before queue now operation response after) (id : Nat) :
    RowStep before after queue operation now response id := by
  cases step with
  | deleteQueue => exact purge_row (Or.inr rfl) rfl (silent_done id)
  | purgeQueue => exact purge_row (Or.inl rfl) rfl (silent_done id)
  | getQueueAttributes names values => exact RowStep.of_refresh rfl (silent_attributes values id)
  | setQueueAttributes => exact RowStep.of_same rfl (silent_done id)
  | tagQueue => exact RowStep.of_same rfl (silent_done id)
  | untagQueue => exact RowStep.of_same rfl (silent_done id)
  | send input result after step => exact send_row rfl step
  | receive options result after done => exact receiveTx_row rfl done
  | deleteMessage handle => exact deleteMessage_row rfl rfl (silent_done id)
  | changeVisibility handle timeout valid =>
    exact changeVisibility_row rfl valid rfl (silent_done id)

end Steps

theorem Served.step {event : SqsEvent} {queue : SqsQueue} {operation : Operation}
    {response : Response} (served : Served event queue operation response) :
    CallStep event.before queue event.input.now operation response event.after := by
  obtain ⟨_, _, found⟩ := served.found
  exact call_step_found found served.called

/-- **A request on a queue does to every row what `RowStep` says.** -/
theorem served_row {event : SqsEvent} {queue : SqsQueue} {operation : Operation}
    {response : Response} (served : Served event queue operation response) (id : Nat) :
    RowStep event.before event.after queue operation event.input.now response id := by
  exact served.step.row id

theorem createQueueTx_messages {store after : Store} {name url : String}
    {attributes tags : BTreeMap String} {now : Int}
    (done : createQueueTx store name url attributes tags now = .ok after) :
    after.messages = store.messages ∧ after.dedup = store.dedup ∧ after.drawn = store.drawn := by
  obtain ⟨_, _, _, ⟨_, _, rfl⟩ | ⟨_, rfl⟩⟩ := createQueueTx_ok done
  · exact ⟨rfl, rfl, rfl⟩
  · exact ⟨rfl, rfl, rfl⟩

/-- A request that works on no queue touches no message. -/
theorem taken_served {event : SqsEvent} (taken : event.Taken perform) :
    (event.after.messages = event.before.messages ∧
      ∀ response, event.output = .ok response → ∀ id, response.Silent id) ∨
    ∃ queue operation response, Served event queue operation response := by
  rcases taken_cases taken with ⟨_, failed, same⟩ | ⟨_, _, _, _, _, done, created⟩ | served
  · refine Or.inl ⟨by rw [same], fun response answered => ?_⟩
    rw [failed] at answered
    cases answered
  · refine Or.inl ⟨(createQueueTx_messages created).1, fun response answered => ?_⟩
    rw [done] at answered
    cases answered
    exact silent_done
  · exact Or.inr served

/-! ### Where a row comes from -/

/-- **What a row of the table after a request was before it.** -/
inductive RowOrigin (before after : Store) (queue : SqsQueue) (operation : Operation) (now : Int)
    (response : Response) (id : Nat) : MessageRow → Prop
  | kept (old : MessageRow) (visible : Bool) (was : before.messages.get id = some old)
      (silent : response.Silent id) :
      RowOrigin before after queue operation now response id { old with visible }
  | changed (old : MessageRow) (timeout : Int) (was : before.messages.get id = some old)
      (asked : operation = .changeVisibility old.receiptHandle timeout)
      (valid : 0 ≤ timeout ∧ timeout ≤ maxVisibility) (here : old.queueId = queue.id)
      (silent : response.Silent id) :
      RowOrigin before after queue operation now response id
        { old with visibleAt := now + timeout * 1000, visible := decide (timeout = 0) }
  | accepted (input : SendInput) (delay : Int) (dedupId sequenceNumber : Option String)
      (was : before.messages.get id = none) (fresh : id = before.messages.next)
      (asked : operation = .send input) (checked : checkSend queue input = .ok delay)
      (reported : response.accepted = some id) (drawn : after.drawn = before.drawn + 2)
      (silent : response.deliveries = [] ∧ response.redriven = []) :
      RowOrigin before after queue operation now response id
        (newMessage queue.id (External.uuid before.drawn) (pendingHandle (before.drawn + 1)) input
          now (now + delay * 1000) dedupId sequenceNumber)
  | delivered (old : MessageRow) (options : ReceiveOptions) (draw : Nat)
      (was : before.messages.get id = some old) (asked : operation = .receive options)
      (here : old.queueId = queue.id) (due : old.visibleAt ≤ now)
      (drawn : before.drawn ≤ draw ∧ draw + 2 ≤ after.drawn)
      (within : ∀ dlq max, deadLetterQueue before queue = some (dlq, max) →
        (old.receiveCount : Int) < max)
      (listed : ∃ delivery ∈ response.deliveries, delivery.row = id)
      (message : ∀ delivery ∈ response.deliveries, delivery.row = id → delivery.message =
        receivedMessage (pollOf before queue options now)
          (newReceiptHandle queue.name old.messageId draw) old)
      (notRedriven : ∀ dlq, (id, dlq) ∉ response.redriven) :
      RowOrigin before after queue operation now response id
        (deliveredRow (pollOf before queue options now)
          (newReceiptHandle queue.name old.messageId draw) old)
  | redriven (old : MessageRow) (options : ReceiveOptions) (draw : Nat) (dlq : SqsQueue) (max : Int)
      (was : before.messages.get id = some old) (asked : operation = .receive options)
      (here : old.queueId = queue.id) (due : old.visibleAt ≤ now)
      (drawn : before.drawn ≤ draw ∧ draw + 1 ≤ after.drawn)
      (target : deadLetterQueue before queue = some (dlq, max)) (reached : max ≤ old.receiveCount)
      (listed : (id, dlq.id) ∈ response.redriven)
      (notDelivered : ∀ delivery ∈ response.deliveries, delivery.row ≠ id) :
      RowOrigin before after queue operation now response id
        (redrivenRow (pollOf before queue options now) dlq (pendingHandle draw) old)

theorem RowStep.origin {before after : Store} {queue : SqsQueue} {operation : Operation} {now : Int}
    {response : Response} {id : Nat} {row : MessageRow}
    (step : RowStep before after queue operation now response id)
    (here : after.messages.get id = some row) :
    RowOrigin before after queue operation now response id row := by
  cases step with
  | absent _ still =>
    rw [still] at here
    cases here
  | expired _ gone =>
    rw [gone] at here
    cases here
  | purged _ gone =>
    rw [gone] at here
    cases here
  | deleted _ gone =>
    rw [gone] at here
    cases here
  | kept was still silent =>
    rw [still] at here
    cases here
    exact RowOrigin.kept _ _ was silent
  | changed was set asked valid home silent =>
    rw [set] at here
    cases here
    exact RowOrigin.changed _ _ was asked valid home silent
  | accepted was fresh stored asked checked reported drawn silent =>
    rw [stored] at here
    cases here
    exact RowOrigin.accepted _ _ _ _ was fresh asked checked reported drawn silent
  | delivered was set asked home due _ drawn within listed message notRedriven =>
    rw [set] at here
    cases here
    exact RowOrigin.delivered _ _ _ was asked home due drawn within listed message notRedriven
  | redriven was set asked home due _ drawn target reached listed notDelivered =>
    rw [set] at here
    cases here
    exact RowOrigin.redriven _ _ _ _ _ was asked home due drawn target reached listed notDelivered

/-- **What a receive does to a message that it returns.** -/
structure Delivers (event : SqsEvent) (queue : SqsQueue) (options : ReceiveOptions)
    (delivery : Delivery) (row : MessageRow) (draw : Nat) : Prop where
  was : event.before.messages.get delivery.row = some row
  here : row.queueId = queue.id
  due : row.visibleAt ≤ event.input.now
  alive : expired queue event.input.now row = false
  set : event.after.messages.get delivery.row = some
    (deliveredRow (pollOf event.before queue options event.input.now)
      (newReceiptHandle queue.name row.messageId draw) row)
  within : ∀ dlq max, deadLetterQueue event.before queue = some (dlq, max) →
    (row.receiveCount : Int) < max
  message : delivery.message = receivedMessage
    (pollOf event.before queue options event.input.now)
    (newReceiptHandle queue.name row.messageId draw) row

theorem Served.delivers {event : SqsEvent} {queue : SqsQueue} {operation : Operation}
    {response : Response} {delivery : Delivery} (served : Served event queue operation response)
    (listed : delivery ∈ response.deliveries) : ∃ options row draw,
      operation = .receive options ∧ Delivers event queue options delivery row draw := by
  have nothing : ¬ response.Silent delivery.row :=
    fun silent => silent.notDelivered delivery listed rfl
  cases served_row served delivery.row with
  | absent _ _ silent => exact absurd silent nothing
  | kept _ _ silent => exact absurd silent nothing
  | expired _ _ _ silent => exact absurd silent nothing
  | purged _ _ _ _ silent => exact absurd silent nothing
  | deleted _ _ _ _ silent => exact absurd silent nothing
  | changed _ _ _ _ _ silent => exact absurd silent nothing
  | accepted _ _ _ _ _ _ _ silent =>
    rw [silent.1] at listed
    cases listed
  | redriven _ _ _ _ _ _ _ _ _ _ notDelivered => exact absurd rfl (notDelivered _ listed)
  | delivered was set asked here due alive _ within _ message =>
    exact ⟨_, _, _, asked, was, here, due, alive, set, within, message delivery listed rfl⟩

end External

end CloudTwin.Sqs
