/-
**FIFO deduplication.**

* `DedupStep` — what a request does to the records of `sqs_fifo_dedup`.
* `Remembered` — the records are exactly the sends accepted within the window, in every run.
* `fifo_deduplication` — a send is accepted as new if and only if no send with its deduplication id
  was accepted within the window; otherwise it is answered as that send was and changes nothing. The
  sequence numbers of the accepted sends increase.
-/

import CloudTwin.Sqs.Handles

namespace CloudTwin.Sqs

open Lib Lib.Text

set_option linter.unusedSectionVars false

section External

variable [external : External]

/-- The request accepted a message as new in the FIFO queue, under the deduplication id. -/
structure AcceptedUnder (event : SqsEvent) (queueId : Nat) (dedupId : String) (sent : Sent) :
    Prop where
  asked : ∃ queue input, Asked event queue (.send input) ∧ queue.id = queueId ∧
    queue.isFifo = true ∧ effectiveDedupId queue input = .ok dedupId
  answered : event.output = .ok (.sent sent)
  new : sent.row.isSome = true

/-- The record of a send that was accepted. -/
def recordOf (event : SqsEvent) (queueId : Nat) (dedupId : String) (sent : Sent) : DedupRow where
  queueId := queueId
  dedupId := dedupId
  messageId := sent.outcome.messageId
  sequenceNumber := sent.outcome.sequenceNumber.getD ""
  expiresAt := event.input.now + dedupWindowMs

/-! ### The records -/

/-- The records that have not expired. -/
def unexpired (dedup : List DedupRow) (now : Int) : List DedupRow :=
  dedup.filter fun row => !decide (row.expiresAt < now)

@[simp] theorem refresh_dedup (store : Store) (queue : SqsQueue) (now : Int) :
    (refresh store queue now).dedup = unexpired store.dedup now := rfl

theorem mem_unexpired {dedup : List DedupRow} {now : Int} {record : DedupRow} :
    record ∈ unexpired dedup now ↔ record ∈ dedup ∧ now ≤ record.expiresAt := by
  simp [unexpired]

/-- The primary key of `sqs_fifo_dedup`. -/
def DedupRow.key (row : DedupRow) : Nat × String :=
  (row.queueId, row.dedupId)

/-- A key names one record. -/
def Keyed (dedup : List DedupRow) : Prop :=
  (dedup.map DedupRow.key).Nodup

theorem Keyed.unique {dedup : List DedupRow} (keyed : Keyed dedup) {first second : DedupRow}
    (memberFirst : first ∈ dedup) (memberSecond : second ∈ dedup) (same : first.key = second.key) :
    first = second :=
  List.inj_on_of_nodup_map keyed memberFirst memberSecond same

theorem Keyed.filter {dedup : List DedupRow} (keyed : Keyed dedup) (keep : DedupRow → Bool) :
    Keyed (dedup.filter keep) :=
  List.Nodup.sublist (List.filter_sublist.map _) keyed

theorem mem_replaceDedup {dedup : List DedupRow} {row record : DedupRow} :
    record ∈ replaceDedup dedup row ↔ record = row ∨ (record ∈ dedup ∧ record.key ≠ row.key) := by
  simp [replaceDedup, DedupRow.key, or_comm, imp_iff_not_or]

theorem Keyed.replace {dedup : List DedupRow} (keyed : Keyed dedup) (row : DedupRow) :
    Keyed (replaceDedup dedup row) := by
  rw [Keyed, replaceDedup, List.map_append, List.nodup_append]
  refine ⟨keyed.filter _, List.nodup_singleton _, fun key member last fresh same => ?_⟩
  obtain ⟨old, kept, rfl⟩ := List.mem_map.mp member
  have new : last = row.key := List.mem_singleton.mp fresh
  have differ := (List.mem_filter.mp kept).2
  rw [new, DedupRow.key, DedupRow.key, Prod.mk.injEq] at same
  simp [same.1, same.2] at differ

/-- A lookup finds the unexpired record with the key. -/
theorem findDedup_some {store : Store} {queueId : Nat} {dedupId : String} {now : Int}
    {record : DedupRow} (found : findDedup store queueId dedupId now = some record) :
    record ∈ store.dedup ∧ record.key = (queueId, dedupId) ∧ now ≤ record.expiresAt := by
  have matched := List.find?_some found
  simp only [Bool.and_eq_true, beq_iff_eq, decide_eq_true_eq] at matched
  exact ⟨List.mem_of_find?_eq_some found, Prod.ext matched.1.1 matched.1.2, matched.2⟩

theorem findDedup_none {store : Store} {queueId : Nat} {dedupId : String} {now : Int}
    (absent : findDedup store queueId dedupId now = none) {record : DedupRow}
    (member : record ∈ store.dedup) (key : record.key = (queueId, dedupId)) :
    record.expiresAt < now := by
  have different := List.find?_eq_none.mp absent record member
  obtain ⟨sameQueue, sameId⟩ := Prod.mk.inj key
  simpa [sameQueue, sameId] using different

/-- **What a request on a queue does to the records.** -/
inductive DedupStep (before after : Store) (queue : SqsQueue) (operation : Operation) (now : Int)
    (response : Response) : Prop
  | same (still : after.dedup = before.dedup)
  | refreshed (swept : after.dedup = unexpired before.dedup now)
  | dropped (gone : after.queues.get queue.id = none)
      (swept : after.dedup = before.dedup.filter fun row => row.queueId != queue.id)
  | accepted {input : SendInput} {dedupId number : String} {row : QueueRow}
      (asked : operation = .send input) (fifo : queue.isFifo = true)
      (effective : effectiveDedupId queue input = .ok dedupId)
      (unknown : findDedup (refresh before queue now) queue.id dedupId now = none)
      (found : before.queues.get queue.id = some row)
      (numbered : sequenceNumberOf (row.fifoSeq + 1) = .ok number)
      (answered : response = .sent
        { outcome := sendOutcome input (External.uuid before.drawn) (some number)
          row := some before.messages.next })
      (counted : after.queues.get queue.id = some { row with fifoSeq := row.fifoSeq + 1 })
      (recorded : after.dedup = replaceDedup (unexpired before.dedup now)
        { queueId := queue.id, dedupId, messageId := External.uuid before.drawn
          sequenceNumber := number, expiresAt := now + dedupWindowMs })

theorem CallStep.dedup {before after : Store} {queue : SqsQueue} {operation : Operation} {now : Int}
    {response : Response} (step : CallStep before queue now operation response after) :
    DedupStep before after queue operation now response := by
  cases step with
  | deleteQueue =>
    refine DedupStep.dropped ?_ rfl
    show (before.queues.delete _).get queue.id = none
    rw [Table.get_delete]
    cases before.queues.get queue.id with
    | none => rfl
    | some row => simp [Option.filter]
  | send input result after step =>
    cases step with
    | standard => exact DedupStep.refreshed rfl
    | duplicate => exact DedupStep.same rfl
    | fifo fifo checked effective unknown found numbered =>
      refine DedupStep.accepted rfl fifo effective unknown found numbered rfl ?_ rfl
      show (before.queues.modify _ _).get queue.id = _
      rw [Table.get_modify, if_pos rfl, found]
      rfl
  | receive options result after done => exact DedupStep.refreshed (receiveTx_frame done).2.1
  | getQueueAttributes => exact DedupStep.refreshed rfl
  | purgeQueue => exact DedupStep.same rfl
  | setQueueAttributes => exact DedupStep.same rfl
  | tagQueue => exact DedupStep.same rfl
  | untagQueue => exact DedupStep.same rfl
  | deleteMessage => exact DedupStep.same rfl
  | changeVisibility => exact DedupStep.same rfl

/-- **The effect of accepting a message.** -/
theorem AcceptedUnder.effect {event : SqsEvent} {queueId : Nat} {dedupId : String} {sent : Sent}
    (accepted : AcceptedUnder event queueId dedupId sent) (taken : event.Taken perform) :
    ∃ row number, event.before.queues.get queueId = some row ∧
      sequenceNumberOf (row.fifoSeq + 1) = .ok number ∧
      sent.outcome.sequenceNumber = some number ∧
      event.after.queues.get queueId = some { row with fifoSeq := row.fifoSeq + 1 } ∧
      event.after.dedup = replaceDedup (unexpired event.before.dedup event.input.now)
        (recordOf event queueId dedupId sent) := by
  obtain ⟨queue, input, asked, rfl, fifo, effective⟩ := accepted.asked
  obtain ⟨⟨result, stored⟩, done, rest⟩ :=
    bind_ok (served_of_asked taken asked accepted.answered).called
  obtain ⟨same, after⟩ := Prod.mk.inj (Except.ok.inj rest)
  cases same
  have new := accepted.new
  rw [← after]
  cases sendTx_step done with
  | standard plain =>
    rw [fifo] at plain
    cases plain
  | duplicate => cases new
  | fifo _ _ effectively _ found numbered =>
    rw [effective] at effectively
    cases effectively
    refine ⟨_, _, found, numbered, rfl, ?_, rfl⟩
    show (event.before.queues.modify _ _).get queue.id = _
    rw [Table.get_modify, if_pos rfl, found]
    rfl

/-- **What a request does to a record**: a new one is of an accepted send; an old one is kept, has
expired, or was of a queue that is gone. -/
structure Recording (event : SqsEvent) : Prop where
  keyed : Keyed event.after.dedup
  origin : ∀ record ∈ event.after.dedup, record ∈ event.before.dedup ∨ ∃ sent,
    AcceptedUnder event record.queueId record.dedupId sent ∧
      record = recordOf event record.queueId record.dedupId sent
  stays : ∀ record ∈ event.before.dedup, record ∈ event.after.dedup ∨
    record.expiresAt < event.input.now ∨ event.after.queues.get record.queueId = none

theorem taken_recording {event : SqsEvent} (taken : event.Taken perform)
    (keyed : Keyed event.before.dedup) : Recording event := by
  have unchanged (same : event.after.dedup = event.before.dedup) : Recording event :=
    ⟨same ▸ keyed, fun record member => Or.inl (same ▸ member),
      fun record member => Or.inl (same ▸ member)⟩
  rcases taken_cases taken with ⟨_, _, same⟩ | ⟨_, _, _, _, _, _, created⟩ |
    ⟨queue, operation, response, served⟩
  · exact unchanged (by rw [same])
  · exact unchanged (createQueueTx_messages created).2.1
  · cases served.step.dedup with
    | same still => exact unchanged still
    | refreshed swept =>
      refine ⟨swept ▸ keyed.filter _,
        fun record member => Or.inl (mem_unexpired.mp (swept ▸ member)).1, fun record member => ?_⟩
      rw [swept]
      by_cases late : record.expiresAt < event.input.now
      · exact Or.inr (Or.inl late)
      · exact Or.inl (mem_unexpired.mpr ⟨member, not_lt.mp late⟩)
    | dropped gone swept =>
      refine ⟨swept ▸ keyed.filter _,
        fun record member => Or.inl (List.mem_filter.mp (swept ▸ member)).1, fun record member => ?_⟩
      rw [swept]
      by_cases here : record.queueId = queue.id
      · exact Or.inr (Or.inr (here ▸ gone))
      · exact Or.inl (List.mem_filter.mpr ⟨member, by simp [here]⟩)
    | accepted asked fifo effective unknown found numbered answered counted recorded =>
      have sent := answered ▸ served.answered
      refine ⟨recorded ▸ (keyed.filter _).replace _, fun record member => ?_,
        fun record member => ?_⟩
      · rcases mem_replaceDedup.mp (recorded ▸ member) with rfl | ⟨old, _⟩
        · exact Or.inr ⟨_, ⟨⟨queue, _, asked ▸ served.found, rfl, fifo, effective⟩, sent, rfl⟩, rfl⟩
        · exact Or.inl (mem_unexpired.mp old).1
      · rw [recorded]
        by_cases late : record.expiresAt < event.input.now
        · exact Or.inr (Or.inl late)
        · have alive := mem_unexpired.mpr ⟨member, not_lt.mp late⟩
          refine Or.inl (mem_replaceDedup.mpr (Or.inr ⟨alive, fun same => late ?_⟩))
          exact findDedup_none unknown alive same

/-! ### Runs -/

/-- **The records are the sends accepted within the window.** -/
structure Remembered (history : List SqsEvent) (store : Store) : Prop where
  keyed : Keyed store.dedup
  /-- Every record is one of an accepted send. -/
  accepted : ∀ record ∈ store.dedup, ∃ event ∈ history, ∃ sent,
    AcceptedUnder event record.queueId record.dedupId sent ∧
      record = recordOf event record.queueId record.dedupId sent
  /-- The record of an accepted send is kept until it expires. -/
  kept : ∀ event ∈ history, ∀ queueId dedupId sent, AcceptedUnder event queueId dedupId sent →
    ∀ row, store.queues.get queueId = some row → recordOf event queueId dedupId sent ∈ store.dedup ∨
      ∃ later ∈ history, event.input.now + dedupWindowMs < later.input.now
  known : ∀ event ∈ history, ∀ queueId dedupId sent, AcceptedUnder event queueId dedupId sent →
    queueId < store.queues.next
  /-- The sequence numbers were counted. -/
  numbered : ∀ event ∈ history, ∀ queueId dedupId sent, AcceptedUnder event queueId dedupId sent →
    ∃ count number, sequenceNumberOf count = .ok number ∧
      sent.outcome.sequenceNumber = some number ∧
      ∀ row, store.queues.get queueId = some row → count ≤ row.fifoSeq

theorem remembered_step {history : List SqsEvent} {event : SqsEvent} (taken : event.Taken perform)
    (remembered : Remembered history event.before) :
    Remembered (history ++ [event]) event.after := by
  obtain ⟨queuesGrow, counts⟩ := taken_counts taken
  obtain ⟨keyed, origin, stays⟩ := taken_recording taken remembered.keyed
  have last : event ∈ history ++ [event] := by simp
  have past : ∀ earlier ∈ history, earlier ∈ history ++ [event] :=
    fun _ member => List.mem_append_left _ member
  refine ⟨keyed, fun record member => ?_, ?_, ?_, ?_⟩
  · rcases origin record member with old | new
    · obtain ⟨earlier, there, facts⟩ := remembered.accepted record old
      exact ⟨earlier, past earlier there, facts⟩
    · exact ⟨event, last, new⟩
  · intro earlier member queueId dedupId sent accepted row here
    rcases List.mem_append.mp member with old | new
    · obtain ⟨was, before, _⟩ :=
        counts queueId row here (remembered.known earlier old queueId dedupId sent accepted)
      rcases remembered.kept earlier old queueId dedupId sent accepted was before with
        recorded | ⟨later, there, late⟩
      · rcases stays _ recorded with still | late | gone
        · exact Or.inl still
        · exact Or.inr ⟨event, last, late⟩
        · exact absurd (here.symm.trans gone) nofun
      · exact Or.inr ⟨later, past later there, late⟩
    · rw [List.mem_singleton.mp new] at accepted ⊢
      obtain ⟨_, _, _, _, _, _, recorded⟩ := accepted.effect taken
      rw [recorded]
      exact Or.inl (mem_replaceDedup.mpr (Or.inl rfl))
  · intro earlier member queueId dedupId sent accepted
    rcases List.mem_append.mp member with old | new
    · exact Nat.lt_of_lt_of_le (remembered.known earlier old queueId dedupId sent accepted) queuesGrow
    · rw [List.mem_singleton.mp new] at accepted
      obtain ⟨row, _, found, _⟩ := accepted.effect taken
      exact Nat.lt_of_lt_of_le (Table.get_lt found) queuesGrow
  · intro earlier member queueId dedupId sent accepted
    rcases List.mem_append.mp member with old | new
    · obtain ⟨count, number, counted, reported, below⟩ :=
        remembered.numbered earlier old queueId dedupId sent accepted
      refine ⟨count, number, counted, reported, fun row here => ?_⟩
      obtain ⟨was, before, grown⟩ :=
        counts queueId row here (remembered.known earlier old queueId dedupId sent accepted)
      exact (below was before).trans grown
    · rw [List.mem_singleton.mp new] at accepted
      obtain ⟨row, number, _, counted, reported, after, _⟩ := accepted.effect taken
      refine ⟨row.fifoSeq + 1, number, counted, reported, fun now here => ?_⟩
      rw [after] at here
      cases here
      exact le_rfl

theorem ServiceRun.remembered {history : List SqsEvent} {store : Store}
    (served : ServiceRun history store) : Remembered history store := by
  have initial : Remembered [] Store.empty :=
    ⟨List.nodup_nil, fun _ none => (List.not_mem_nil none).elim,
      fun _ none => (List.not_mem_nil none).elim, fun _ none => (List.not_mem_nil none).elim,
      fun _ none => (List.not_mem_nil none).elim⟩
  exact served.induct (motive := Remembered) initial fun _ _ _ taken _ => remembered_step taken

/-! ### Sends -/

theorem sendTx_duplicate {store : Store} {queue : SqsQueue} {input : SendInput} {now delay : Int}
    {dedupId : String} {record : DedupRow} (fifo : queue.isFifo = true)
    (checked : checkSend queue input = .ok delay)
    (effective : effectiveDedupId queue input = .ok dedupId)
    (known : findDedup (refresh store queue now) queue.id dedupId now = some record) :
    sendTx store queue input now = .ok
      ({ outcome := sendOutcome input record.messageId (some record.sequenceNumber), row := none },
        store) := by
  simp [sendTx, sendFifo, checked, fifo, effective, known, bind, Except.bind, pure, Except.pure]

theorem sendTx_new {store : Store} {queue : SqsQueue} {input : SendInput} {now delay : Int}
    {dedupId number : String} {row : QueueRow} (fifo : queue.isFifo = true)
    (checked : checkSend queue input = .ok delay)
    (effective : effectiveDedupId queue input = .ok dedupId)
    (unknown : findDedup (refresh store queue now) queue.id dedupId now = none)
    (found : store.queues.get queue.id = some row)
    (numbered : sequenceNumberOf (row.fifoSeq + 1) = .ok number)
    (free : handleTaken (refresh store queue now).messages store.messages.next
      (pendingHandle (store.drawn + 1)) = false) :
    ∃ after, sendTx store queue input now = .ok
      ({ outcome := sendOutcome input (External.uuid store.drawn) (some number)
         row := some store.messages.next }, after) := by
  simp only [sendTx, sendFifo, sendFifoNew, nextFifoSeq, insertMessage, checked, fifo, effective,
    unknown, refresh_queues, found, numbered, refresh_drawn, refresh_next, free, bind, Except.bind,
    pure, Except.pure, if_true, Bool.false_eq_true, if_false]
  exact ⟨_, rfl⟩

/-- The sequence numbers of the queue are used up: the next one does not fit into 64 bits. -/
def Exhausted (store : Store) (queueId : Nat) : Prop :=
  ∃ row, store.queues.get queueId = some row ∧
    2 ^ 64 ≤ 10000000000000000000 + (row.fifoSeq + 1)

/-- **What a send with a deduplication id does**, given the requests before it. -/
structure Deduplicated (past : List SqsEvent) (event : SqsEvent) (queue : SqsQueue)
    (input : SendInput) (dedupId : String) : Prop where
  /-- Within the window of an accepted send it is answered as that send was, and changes nothing. -/
  duplicate : ∀ first ∈ past, ∀ sent, AcceptedUnder first queue.id dedupId sent →
    event.input.now ≤ first.input.now + 300000 →
    event.output = .ok (.sent
      { outcome := sendOutcome input sent.outcome.messageId sent.outcome.sequenceNumber
        row := none }) ∧
    event.after = event.before
  /-- Outside every such window it is accepted as new. -/
  new : (∀ first ∈ past, ∀ sent, AcceptedUnder first queue.id dedupId sent →
      first.input.now + 300000 < event.input.now) →
    (∃ sent, AcceptedUnder event queue.id dedupId sent) ∨ Exhausted event.before queue.id

theorem deduplicated (laws : UuidLaws external) {past rest : List SqsEvent} {event : SqsEvent}
    {store : Store} {queue : SqsQueue} {input : SendInput} {delay : Int} {dedupId : String}
    (served : ServiceRun (past ++ event :: rest) store) (asked : Asked event queue (.send input))
    (fifo : queue.isFifo = true) (checked : checkSend queue input = .ok delay)
    (effective : effectiveDedupId queue input = .ok dedupId) :
    Deduplicated past event queue input dedupId := by
  obtain ⟨run, taken, _⟩ := served.around
  have remembered := run.remembered
  have settled := taken_on taken asked
  obtain ⟨row, here, _⟩ := (run.tidy.served asked.choose_spec.2).1
  refine ⟨fun first member sent accepted within => ?_, fun outside => ?_⟩
  · have alive : event.input.now ≤ (recordOf first queue.id dedupId sent).expiresAt := within
    have recorded : recordOf first queue.id dedupId sent ∈ event.before.dedup := by
      rcases remembered.kept first member queue.id dedupId sent accepted row here with
        recorded | ⟨later, there, late⟩
      · exact recorded
      · exact absurd (served.clock later there) (not_le.mpr (lt_of_le_of_lt within late))
    obtain ⟨count, number, _, numbered, _⟩ :=
      remembered.numbered first member queue.id dedupId sent accepted
    have known : findDedup (refresh event.before queue event.input.now) queue.id dedupId
        event.input.now = some (recordOf first queue.id dedupId sent) := by
      cases found : findDedup (refresh event.before queue event.input.now) queue.id dedupId
          event.input.now with
      | none =>
        have stale := findDedup_none found (mem_unexpired.mpr ⟨recorded, alive⟩) rfl
        exact absurd stale (not_lt.mpr alive)
      | some record =>
        obtain ⟨there, key, _⟩ := findDedup_some found
        exact congrArg some (remembered.keyed.unique (mem_unexpired.mp there).1 recorded key)
    have answer := sendTx_duplicate fifo checked effective known
    rw [Operation.call, answer] at settled
    obtain ⟨output, after⟩ := Prod.mk.inj settled
    refine ⟨?_, after.symm⟩
    rw [← output, recordOf, numbered]
    rfl
  · by_cases exhausted : Exhausted event.before queue.id
    · exact Or.inr exhausted
    · have unknown : findDedup (refresh event.before queue event.input.now) queue.id dedupId
          event.input.now = none := by
        by_contra found
        obtain ⟨record, found⟩ := Option.ne_none_iff_exists'.mp found
        obtain ⟨there, key, alive⟩ := findDedup_some found
        obtain ⟨first, member, sent, accepted, same⟩ :=
          remembered.accepted record (mem_unexpired.mp there).1
        obtain ⟨sameQueue, sameId⟩ := Prod.mk.inj key
        rw [sameQueue, sameId] at accepted same
        rw [same] at alive
        exact absurd alive (not_le.mpr (outside first member sent accepted))
      have fits : 10000000000000000000 + (row.fifoSeq + 1) < 2 ^ 64 :=
        not_le.mp fun large => exhausted ⟨row, here, large⟩
      obtain ⟨after, done⟩ := sendTx_new fifo checked effective unknown here (if_pos fits)
        ((refresh_minted laws (run.minted laws)).pending_free laws _ (Nat.le_succ _))
      rw [Operation.call, done] at settled
      exact Or.inl ⟨_, ⟨queue, input, asked, rfl, fifo, effective⟩, (Prod.mk.inj settled).1.symm,
        rfl⟩

/-- Sequence numbers are ordered as they were counted. -/
theorem sequenceNumberOf_lt {first second : Nat} {low high : String}
    (lowNumber : sequenceNumberOf first = .ok low)
    (highNumber : sequenceNumberOf second = .ok high) (less : first < second) : low < high := by
  have number : ∀ {seq : Nat} {text : String}, sequenceNumberOf seq = .ok text →
      10000000000000000000 + seq < 2 ^ 64 ∧ decimal 20 (10000000000000000000 + seq) = text := by
    intro seq text counted
    unfold sequenceNumberOf at counted
    split at counted
    · rename_i fits
      exact ⟨fits, Except.ok.inj counted⟩
    · cases counted
  obtain ⟨_, rfl⟩ := number lowNumber
  obtain ⟨fits, rfl⟩ := number highNumber
  exact decimal_lt (by omega) (by omega) (by omega)

/-- **FIFO deduplication.** In every run, whatever the `DeduplicationScope` of the queue: a send
that passes its checks is deduplicated against the sends accepted before it, and the sequence
numbers of a queue increase. -/
theorem fifo_deduplication (laws : UuidLaws external) {history : List SqsEvent} {store : Store}
    (served : ServiceRun history store) :
    (∀ past event rest queue input delay dedupId, history = past ++ event :: rest →
      Asked event queue (.send input) → queue.isFifo = true → checkSend queue input = .ok delay →
      effectiveDedupId queue input = .ok dedupId →
      Deduplicated past event queue input dedupId) ∧
    ∀ past first between second rest queueId dedupId otherId sent other,
      history = past ++ first :: between ++ second :: rest →
      AcceptedUnder first queueId dedupId sent → AcceptedUnder second queueId otherId other →
      ∃ low high, sent.outcome.sequenceNumber = some low ∧
        other.outcome.sequenceNumber = some high ∧ low < high := by
  refine ⟨fun past event rest queue input delay dedupId whole asked fifo checked effective => ?_,
    fun past first between second rest queueId dedupId otherId sent other whole accepted next => ?_⟩
  · subst whole
    exact deduplicated laws served asked fifo checked effective
  · subst whole
    obtain ⟨run, taken, _⟩ := served.around
    obtain ⟨count, low, counted, reported, below⟩ :=
      run.remembered.numbered first (by simp) queueId dedupId sent accepted
    obtain ⟨row, high, here, numbered, answered, _⟩ := next.effect taken
    exact ⟨low, high, reported, answered,
      sequenceNumberOf_lt counted numbered (Nat.lt_succ_of_le (below row here))⟩

end External

section Sample

attribute [local instance] External.sample

/-- A send, and the same send at the end of its window. -/
def sampleAccepted : SqsEvent :=
  Event.of perform (perform Store.empty (sampleCreateFifo 0 "0")).2 (sampleSendFifo 0 "first")

def sampleRepeated : SqsEvent :=
  Event.of perform sampleAccepted.after (sampleSendFifo 300000 "first")

/-- At the end of the window the second send is still a duplicate. -/
theorem fifo_deduplication_sample : ∃ sent, sampleAccepted.output = .ok (.sent sent) ∧
    sampleRepeated.output = .ok (.sent
      { outcome := sendOutcome { body := "hello", groupId := some "group", dedupId := some "first" }
          sent.outcome.messageId sent.outcome.sequenceNumber
        row := none }) ∧
    sampleRepeated.after = sampleRepeated.before := by
  have served : ServiceRun (Run.trace perform Store.empty
      [sampleCreateFifo 0 "0", sampleSendFifo 0 "first", sampleSendFifo 300000 "first"])
      sampleRepeated.after :=
    ServiceRun.of_inputs
      [sampleCreateFifo 0 "0", sampleSendFifo 0 "first", sampleSendFifo 300000 "first"] (by decide)
  obtain ⟨sent, output, row⟩ := rowAccepted_some (show rowAccepted sampleAccepted = some 1 by
    decide +kernel)
  have new : sent.row.isSome = true := by rw [row]; rfl
  obtain ⟨first, foundFirst, fifoFirst⟩ : ∃ queue,
      (getQueue sampleAccepted.before "orders.fifo").toOption = some queue ∧
      (queue.isFifo, queue.id) = (true, 1) := Option.map_eq_some_iff.mp (by decide +kernel)
  obtain ⟨queue, found, fifo⟩ : ∃ queue,
      (getQueue sampleRepeated.before "orders.fifo").toOption = some queue ∧
      (queue.isFifo, queue.id, (checkSend queue
        { body := "hello", groupId := some "group", dedupId := some "first" }).toOption) =
        (true, 1, some 0) := Option.map_eq_some_iff.mp (by decide +kernel)
  simp only [Prod.mk.injEq] at fifo fifoFirst
  have accepted : AcceptedUnder sampleAccepted queue.id "first" sent :=
    ⟨⟨first, _, ⟨"orders.fifo", rfl, ok_of_toOption foundFirst⟩, fifoFirst.2.trans fifo.2.1.symm,
      fifoFirst.1, rfl⟩, output, new⟩
  have result := (fifo_deduplication sample_laws served).1 [_, sampleAccepted] sampleRepeated []
    queue _ 0 "first" rfl ⟨"orders.fifo", rfl, ok_of_toOption found⟩ fifo.1
    (ok_of_toOption fifo.2.2) rfl
  exact ⟨sent, output, result.duplicate sampleAccepted (by simp) sent accepted (by decide)⟩

end Sample

end CloudTwin.Sqs
