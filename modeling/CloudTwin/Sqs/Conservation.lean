/-
**No message is lost, copied or changed.**

* `SameContent` and `content_step` — a stored message keeps its content, or the request removes it
  for one of the reasons of `Removed`.
* `move_cause` — a message changes its queue only by a redrive.
* `arrived_receivable` — after a redrive every receive on the dead-letter queue finds the message,
  unless it has expired there or its group is blocked.
* `received_count` — what a receive reports as the receive count stays within `maxReceiveCount`.
* `message_conservation` — all of it, for every run after the message was accepted;
  `arrival_not_receivable` shows that neither proviso can be left out.
-/

import CloudTwin.Sqs.DeadLetterSources
import CloudTwin.Sqs.Lease

namespace CloudTwin.Sqs

open Lib

set_option linter.unusedSectionVars false

section External

variable [external : External]

/-- The request accepted the message as new, in the row. -/
def Accepted (event : SqsEvent) (queue : SqsQueue) (input : SendInput) (sent : Sent) (id : Nat) :
    Prop :=
  Asked event queue (.send input) ∧ event.output = .ok (.sent sent) ∧ sent.row = some id

/-- What stays the same of a message as long as it is stored. -/
structure SameContent (first row : MessageRow) : Prop where
  messageId : row.messageId = first.messageId
  body : row.body = first.body
  messageAttributes : row.messageAttributes = first.messageAttributes
  systemAttributes : row.systemAttributes = first.systemAttributes
  groupId : row.groupId = first.groupId
  dedupId : row.dedupId = first.dedupId
  sequenceNumber : row.sequenceNumber = first.sequenceNumber
  sentAt : row.sentAt = first.sentAt

theorem SameContent.refl (row : MessageRow) : SameContent row row :=
  ⟨rfl, rfl, rfl, rfl, rfl, rfl, rfl, rfl⟩

theorem SameContent.trans {first second third : MessageRow} (one : SameContent first second)
    (two : SameContent second third) : SameContent first third :=
  ⟨two.1.trans one.1, two.2.trans one.2, two.3.trans one.3, two.4.trans one.4, two.5.trans one.5,
    two.6.trans one.6, two.7.trans one.7, two.8.trans one.8⟩

/-- Receives, redrives and changes of visibility keep the content. -/
theorem RowOrigin.sameContent {before after : Store} {queue : SqsQueue} {operation : Operation}
    {now : Int} {response : Response} {id : Nat} {row old : MessageRow}
    (origin : RowOrigin before after queue operation now response id row)
    (was : before.messages.get id = some old) : SameContent old row := by
  cases origin with
  | kept same visible found =>
    rw [was] at found
    cases found
    exact ⟨rfl, rfl, rfl, rfl, rfl, rfl, rfl, rfl⟩
  | changed same timeout found =>
    rw [was] at found
    cases found
    exact ⟨rfl, rfl, rfl, rfl, rfl, rfl, rfl, rfl⟩
  | delivered same options draw found =>
    rw [was] at found
    cases found
    exact ⟨rfl, rfl, rfl, rfl, rfl, rfl, rfl, rfl⟩
  | redriven same options draw dlq max found =>
    rw [was] at found
    cases found
    exact ⟨rfl, rfl, rfl, rfl, rfl, rfl, rfl, rfl⟩
  | accepted _ _ _ _ absent =>
    rw [was] at absent
    cases absent

/-- **The reasons for which a message goes.** -/
inductive Removed (event : SqsEvent) (id : Nat) (row : MessageRow) : Prop
  | deleted {queue : SqsQueue} (asked : Asked event queue (.deleteMessage row.receiptHandle))
      (here : row.queueId = queue.id)
  | expired {queue : SqsQueue} {operation : Operation} (asked : Asked event queue operation)
      (here : row.queueId = queue.id)
      (late : row.sentAt + queue.attrI64 "MessageRetentionPeriod" * 1000 < event.input.now)
  | purged {queue : SqsQueue} (asked : Asked event queue .purgeQueue)
      (here : row.queueId = queue.id)
  | dropped {queue : SqsQueue} (asked : Asked event queue .deleteQueue)
      (here : row.queueId = queue.id)

/-- **What a redrive is**: a receive on the message's queue, whose policy names a queue that exists
and a count that the message has reached, puts it into that queue, due at once. -/
structure Redriven (event : SqsEvent) (row after : MessageRow) (dlq : SqsQueue) (max : Int) : Prop
    where
  asked : ∃ queue options, Asked event queue (.receive options) ∧ row.queueId = queue.id ∧
    deadLetterQueue event.before queue = some (dlq, max)
  reached : max ≤ row.receiveCount
  moved : after.queueId = dlq.id
  there : ∃ name, getQueue event.after name = .ok dlq
  due : after.visibleAt = event.input.now ∧ after.visible = true
  reset : after.receiveCount = 0

/-- The message of the row has not expired in the queue. -/
def AliveIn (event : SqsEvent) (queue : SqsQueue) (row : MessageRow) : Prop :=
  expired queue event.input.now row = false

/-- In a FIFO queue, no other message of the group of the row is in flight. -/
def GroupFree (event : SqsEvent) (queue : SqsQueue) (id : Nat) (row : MessageRow) : Prop :=
  queue.isFifo = true → ∀ other member, other ≠ id → member.groupId = row.groupId →
    ¬ InFlight event.after queue event.input.now other member

/-! ### One request -/

/-- **A stored message keeps its content, or goes for a reason.** -/
theorem content_step {event : SqsEvent} {id : Nat} {row : MessageRow} (taken : event.Taken perform)
    (was : event.before.messages.get id = some row) :
    (∃ after, event.after.messages.get id = some after ∧ SameContent row after) ∨
      (event.after.messages.get id = none ∧ Removed event id row) := by
  rcases taken_served taken with ⟨same, _⟩ | ⟨queue, operation, response, served⟩
  · exact Or.inl ⟨row, by rw [same, was], SameContent.refl row⟩
  · cases step : event.after.messages.get id with
    | some after =>
      exact Or.inl ⟨after, rfl, ((served_row served id).origin step).sameContent was⟩
    | none =>
      refine Or.inr ⟨rfl, ?_⟩
      cases served_row served id with
      | absent found =>
        rw [was] at found
        cases found
      | @expired old found _ late =>
        rw [was] at found
        cases found
        simp only [expired, Bool.and_eq_true, beq_iff_eq, decide_eq_true_eq] at late
        exact Removed.expired served.found late.1.1 late.2
      | purged found _ asked here =>
        rw [was] at found
        cases found
        rcases asked with purge | drop
        · exact Removed.purged (purge ▸ served.found) here
        · exact Removed.dropped (drop ▸ served.found) here
      | deleted found _ asked here =>
        rw [was] at found
        cases found
        exact Removed.deleted (asked ▸ served.found) here
      | kept _ still =>
        rw [still] at step
        cases step
      | changed _ set =>
        rw [set] at step
        cases step
      | accepted _ _ stored =>
        rw [stored] at step
        cases step
      | delivered _ set =>
        rw [set] at step
        cases step
      | redriven _ set =>
        rw [set] at step
        cases step

theorem validQueueName_isEmpty {name : String} (valid : validQueueName name = true) :
    name.isEmpty = false := by
  rw [← Bool.not_eq_true, String.isEmpty_iff]
  rintro rfl
  exact absurd valid (by decide)

/-- A dead-letter queue is found by the ARN in the policy, as long as the queues stay. -/
theorem deadLetterQueue_found {before after : Store} {queue dlq : SqsQueue} {max : Int}
    (tidy : Tidy before) (target : deadLetterQueue before queue = some (dlq, max))
    (same : after.queues = before.queues) : ∃ name, getQueue after name = .ok dlq := by
  unfold deadLetterQueue at target
  obtain ⟨⟨arn, limit⟩, _, rest⟩ := Option.bind_eq_some_iff.mp target
  obtain ⟨found, here, rest⟩ := Option.bind_eq_some_iff.mp rest
  cases rest
  obtain ⟨row, there, named, _⟩ := findQueue_row here
  have solid : (queueNameOf arn).isEmpty = false := by
    have valid := tidy.named _ row there
    rw [named] at valid
    exact validQueueName_isEmpty valid
  have still : findQueue after (queueNameOf arn) = some dlq := by
    rw [← here, findQueue, findQueue, same]
  refine ⟨arn, ?_⟩
  rw [getQueue]
  simp only [solid, requireQueue, still, Bool.false_eq_true, if_false]

/-- **A message changes its queue only by a redrive.** -/
theorem move_cause {event : SqsEvent} {id : Nat} {row after : MessageRow}
    (tidy : Tidy event.before) (taken : event.Taken perform)
    (was : event.before.messages.get id = some row)
    (now : event.after.messages.get id = some after) (moved : row.queueId ≠ after.queueId) :
    ∃ dlq max, Redriven event row after dlq max := by
  rcases taken_served taken with ⟨same, _⟩ | ⟨queue, operation, response, served⟩
  · rw [same, was] at now
    cases now
    exact absurd rfl moved
  · cases (served_row served id).origin now with
    | kept old visible found =>
      rw [was] at found
      cases found
      exact absurd rfl moved
    | changed old timeout found =>
      rw [was] at found
      cases found
      exact absurd rfl moved
    | delivered old options draw found =>
      rw [was] at found
      cases found
      exact absurd rfl moved
    | accepted _ _ _ _ absent =>
      rw [was] at absent
      cases absent
    | redriven old options draw dlq max found asked here _ _ target reached =>
      rw [was] at found
      cases found
      subst asked
      have queues : event.after.queues = event.before.queues := by
        cases served.step with
        | receive _ _ _ done => exact (receiveTx_frame done).1
      exact ⟨dlq, max, ⟨queue, options, served.found, here, target⟩, reached, rfl,
        deadLetterQueue_found tidy target queues, ⟨rfl, rfl⟩, rfl⟩

/-- **A redriven message is found by every receive on its new queue**, unless it has expired there
or another message of its group is in flight. -/
theorem arrived_receivable (laws : UuidLaws external) {event : SqsEvent} {id : Nat}
    {row after : MessageRow} {dlq : SqsQueue} {max : Int}
    (minted : Minted event.after.messages event.after.drawn) (tidy : Tidy event.after)
    (now : event.after.messages.get id = some after) (redriven : Redriven event row after dlq max)
    (alive : AliveIn event dlq after) (free : GroupFree event dlq id after) :
    Receivable event.after dlq event.input.now id after := by
  obtain ⟨name, found⟩ := redriven.there
  exact receivable_of_due laws minted (tidy.queueBar found) now redriven.moved alive
    redriven.due.1.le free

theorem putAttribute_get (names : List String) (name : String) (value : Option String)
    (attributes : BTreeMap String) (other : String) :
    (putAttribute names name value attributes)[other]? =
      if name = other ∧ wants names name = true ∧ value.isSome then value
      else attributes[other]? := by
  cases value with
  | none => simp [putAttribute]
  | some value =>
    by_cases wanted : wants names name = true
    · simp [putAttribute, wanted, getElem_insert]
    · simp [putAttribute, wanted]

/-- The receive count that a returned message carries. -/
theorem receivedAttributes_count (poll : Poll) (row : MessageRow) (count : Nat) (first : Int)
    (wanted : wants poll.options.systemAttributeNames "ApproximateReceiveCount" = true) :
    (receivedAttributes poll row count first)["ApproximateReceiveCount"]? =
      some (toString count) := by
  simp [receivedAttributes, putAttribute_get, wanted]

/-- **A message returned under a redrive policy was received at most `maxReceiveCount` times.** -/
theorem received_count {event : SqsEvent} {queue dlq : SqsQueue} {options : ReceiveOptions}
    {max : Int} {received : Received} {delivery : Delivery} (taken : event.Taken perform)
    (asked : Asked event queue (.receive options)) (answered : event.output = .ok (.received received))
    (listed : delivery ∈ received.deliveries)
    (target : deadLetterQueue event.before queue = some (dlq, max))
    (wanted : wants options.systemAttributeNames "ApproximateReceiveCount" = true) :
    ∃ count : Nat,
      delivery.message.attributes["ApproximateReceiveCount"]? = some (toString count) ∧
      (count : Int) ≤ max := by
  obtain ⟨_, row, draw, same, delivers⟩ := (served_of_asked taken asked answered).delivers listed
  cases same
  refine ⟨row.receiveCount + 1, ?_, ?_⟩
  · rw [delivers.message]
    exact receivedAttributes_count _ row _ _ wanted
  · have below := delivers.within dlq max target
    push_cast
    omega

/-! ### Runs -/

/-- **What becomes of a message** that was first stored as `original`. -/
structure Conserved (original : MessageRow) (later : List SqsEvent) (store : Store) (id : Nat) :
    Prop where
  /-- It is stored in one queue with its content, or a request removed it for a reason. -/
  stored : (∃ row home, store.messages.get id = some row ∧ SameContent original row ∧
      store.queues.get row.queueId = some home ∧
      ∀ other copy, store.messages.get other = some copy → copy.messageId = row.messageId →
        other = id) ∨
    (store.messages.get id = none ∧ ∃ event ∈ later, ∃ row,
      event.before.messages.get id = some row ∧ event.after.messages.get id = none ∧
        Removed event id row)
  /-- It changes its queue only by a redrive, and every receive on its new queue then finds it. -/
  moves : ∀ event ∈ later, ∀ row after, event.before.messages.get id = some row →
    event.after.messages.get id = some after → row.queueId ≠ after.queueId →
    ∃ dlq max, Redriven event row after dlq max ∧
      (AliveIn event dlq after → GroupFree event dlq id after →
        Receivable event.after dlq event.input.now id after)

theorem accepted_row {event : SqsEvent} {queue : SqsQueue} {input : SendInput} {sent : Sent}
    {id : Nat} (taken : event.Taken perform) (accepted : Accepted event queue input sent id) :
    ∃ row, event.after.messages.get id = some row ∧ row.queueId = queue.id ∧
      row.messageId = sent.outcome.messageId ∧ row.body = input.body ∧
      row.messageAttributes = attrsColumn input.attributes ∧ row.groupId = input.groupId := by
  obtain ⟨asked, answered, reported⟩ := accepted
  obtain ⟨⟨result, stored⟩, done, rest⟩ := bind_ok (served_of_asked taken asked answered).called
  obtain ⟨same, after⟩ := Prod.mk.inj (Except.ok.inj rest)
  cases same
  rw [← after]
  have found : ∀ (table : Table MessageRow) (row : MessageRow) (next : Nat),
      table.next = next → some next = some id → (table.insert row).get id = some row := by
    intro table row next same equal
    rw [Table.get_insert, same, if_pos (Option.some.inj equal).symm]
  cases sendTx_step done with
  | standard => exact ⟨_, found _ _ _ rfl reported, rfl, rfl, rfl, rfl, rfl⟩
  | duplicate => cases reported
  | fifo => exact ⟨_, found _ _ _ rfl reported, rfl, rfl, rfl, rfl, rfl⟩

/-- A removed message does not come back: its row id is never given again. -/
theorem gone_step {event : SqsEvent} {id : Nat} (taken : event.Taken perform)
    (gone : event.before.messages.get id = none) (given : id < event.before.messages.next) :
    event.after.messages.get id = none := by
  rcases taken_served taken with ⟨same, _⟩ | ⟨queue, operation, response, served⟩
  · rw [same, gone]
  · cases step : event.after.messages.get id with
    | none => rfl
    | some row =>
      cases (served_row served id).origin step with
      | kept old visible was => rw [gone] at was; cases was
      | changed old timeout was => rw [gone] at was; cases was
      | delivered old options draw was => rw [gone] at was; cases was
      | redriven old options draw dlq max was => rw [gone] at was; cases was
      | accepted _ _ _ _ _ fresh => exact absurd fresh given.ne

theorem gone_along {start store : Store} {later : List SqsEvent} {id : Nat}
    (run : Run perform start later store) (given : id < start.messages.next)
    (gone : start.messages.get id = none) : store.messages.get id = none := by
  induction run with
  | start => exact gone
  | next run taken ih =>
    exact gone_step taken ih (Nat.lt_of_lt_of_le given (run_grows run).2)

/-- **A stored message keeps its content along a run, or one of the requests removes it.** -/
theorem kept_or_gone {later : List SqsEvent} {start store : Store} {id : Nat}
    {original : MessageRow} (run : Run perform start later store)
    (stored : start.messages.get id = some original) :
    (∃ row, store.messages.get id = some row ∧ SameContent original row) ∨
      (store.messages.get id = none ∧ ∃ event ∈ later, ∃ row,
        event.before.messages.get id = some row ∧ event.after.messages.get id = none ∧
          Removed event id row) := by
  induction run with
  | start => exact Or.inl ⟨original, stored, SameContent.refl original⟩
  | @next history event run taken ih =>
    have before : id < event.before.messages.next :=
      Nat.lt_of_lt_of_le (Table.get_lt stored) (run_grows run).2
    rcases ih with ⟨row, was, same⟩ | ⟨gone, earlier, member, removed⟩
    · rcases content_step taken was with ⟨after, now, kept⟩ | ⟨gone, removed⟩
      · exact Or.inl ⟨after, now, same.trans kept⟩
      · exact Or.inr ⟨gone, event, by simp, row, was, gone, removed⟩
    · exact Or.inr ⟨gone_step taken gone before, earlier, List.mem_append_left _ member, removed⟩

/-- **Conservation.** In every run, a message that a send accepted as new is conserved, and no
message is returned more often than its queue's redrive policy allows. -/
theorem message_conservation (laws : UuidLaws external) {history : List SqsEvent} {store : Store}
    (served : ServiceRun history store) :
    (∀ past first later queue input sent id, history = past ++ first :: later →
      Accepted first queue input sent id → ∃ original,
        first.after.messages.get id = some original ∧ original.queueId = queue.id ∧
        original.messageId = sent.outcome.messageId ∧ original.body = input.body ∧
        original.messageAttributes = attrsColumn input.attributes ∧
        original.groupId = input.groupId ∧ Conserved original later store id) ∧
    ∀ event ∈ history, ∀ queue options dlq max received delivery,
      Asked event queue (.receive options) → event.output = .ok (.received received) →
      delivery ∈ received.deliveries → deadLetterQueue event.before queue = some (dlq, max) →
      wants options.systemAttributeNames "ApproximateReceiveCount" = true → ∃ count : Nat,
        delivery.message.attributes["ApproximateReceiveCount"]? = some (toString count) ∧
        (count : Int) ≤ max := by
  refine ⟨?_, fun event member queue options dlq max received delivery asked answered listed target
    wanted => received_count (served.run.taken_of_mem event member) asked answered listed target
      wanted⟩
  intro past first later queue input sent id whole accepted
  subst whole
  obtain ⟨_, taken, runLater⟩ := served.around
  obtain ⟨original, stored, home, messageId, body, attributes, group⟩ := accepted_row taken accepted
  refine ⟨original, stored, home, messageId, body, attributes, group, ?_, ?_⟩
  rotate_left
  · intro event member row after was now moved
    obtain ⟨prefixed, rest, same⟩ := List.append_of_mem member
    have through : ServiceRun ((past ++ first :: prefixed) ++ event :: rest) store := by
      rw [List.append_assoc, List.cons_append, ← same]
      exact served
    obtain ⟨runBefore, takenEvent, _⟩ := through.around
    have arrived := runBefore.extend takenEvent through.clock
    obtain ⟨dlq, max, redriven⟩ := move_cause runBefore.tidy takenEvent was now moved
    exact ⟨dlq, max, redriven,
      arrived_receivable laws (arrived.minted laws) arrived.tidy now redriven⟩
  rcases kept_or_gone runLater stored with ⟨row, here, same⟩ | gone
  · obtain ⟨home, there⟩ := served.tidy.housed id row here
    exact Or.inl ⟨row, home, here, same, there, fun other copy there equal =>
      (served.minted laws).distinct other id copy row there here equal⟩
  · exact Or.inr gone

/-- A message that a redrive has moved is receivable in its new queue at once, under the proviso. -/
def ReceivableOnArrival (proviso : SqsEvent → SqsQueue → Nat → MessageRow → Prop) : Prop :=
  ∀ past event id row after dlq max, ServiceRun (past ++ [event]) event.after →
    event.before.messages.get id = some row → event.after.messages.get id = some after →
    Redriven event row after dlq max → proviso event dlq id after →
    Receivable event.after dlq event.input.now id after

/-- The queue that a redriven message is in. -/
theorem Redriven.target {event : SqsEvent} {row after : MessageRow} {dlq : SqsQueue} {max : Int}
    (redriven : Redriven event row after dlq max) {home : QueueRow}
    (housed : event.after.queues.get after.queueId = some home) :
    dlq = queueFromRow after.queueId home := by
  obtain ⟨name, found⟩ := redriven.there
  obtain ⟨other, here, _, same⟩ := getQueue_row found
  rw [redriven.moved, here] at housed
  cases housed
  rw [redriven.moved]
  exact same

end External

section Sample

/-- The policy of a queue whose messages go to `target` after one receive. -/
def redriveText (target : String) : String :=
  "\x7b\"deadLetterTargetArn\":\"" ++ target ++ "\",\"maxReceiveCount\":1\x7d"

/-- Crates that know this policy for two queues. -/
@[reducible]
def redriveCrates : External where
  jsonFromStr text :=
    if text = redriveText "dead" then some (policyOf "dead" 1)
    else if text = redriveText "dead.fifo" then some (policyOf "dead.fifo" 1)
    else none
  jsonToString policy :=
    redriveText (((policy.get "deadLetterTargetArn").bind Json.asStr).getD "")
  sha256Hex := External.sample.sha256Hex
  md5Hex := External.sample.md5Hex
  parsesF64 _ := false
  uuid := External.sample.uuid

theorem redrive_laws : UuidLaws redriveCrates :=
  ⟨sample_laws.fresh, sample_laws.noBar⟩

attribute [local instance] redriveCrates

/-- CreateQueue at the time 1. -/
def redriveCreate (name : String) (attributes : List (String × String)) : Input where
  now := 1
  request := .createQueue name ("http://localhost:4566/000000000000/" ++ name)
    (attributes.foldl (fun written (name, value) => written.insert name value) ∅) ∅

/-- A receive that leaves what it returns visible. -/
def redriveReceive (name : String) (now : Int) : Input where
  now := now
  request := .on name (.receive
    { max := 1, visibilityTimeout := some 0, systemAttributeNames := ["All"] })

/-- A message that was received once from a queue whose messages then go to the queue `dead`. -/
def redriveInputs (retention : String) : List Input :=
  [redriveCreate "dead" [("MessageRetentionPeriod", retention)],
    redriveCreate "source" [("RedrivePolicy", redriveText "dead")],
    { now := 1, request := .on "source" (.send { body := "hello" }) },
    redriveReceive "source" 1]

/-- The next receive from the queue. -/
def redriveEvent (inputs : List Input) (source : String) (now : Int) : SqsEvent :=
  Event.of perform (Run.final perform Store.empty inputs) (redriveReceive source now)

theorem redrive_served (inputs : List Input) (source : String) (now : Int)
    (clock : (inputs ++ [redriveReceive source now]).Pairwise
      fun first second => first.now ≤ second.now) :
    ServiceRun (Run.trace perform Store.empty inputs ++ [redriveEvent inputs source now])
      (redriveEvent inputs source now).after := by
  have earlier : ServiceRun (Run.trace perform Store.empty inputs)
      (Run.final perform Store.empty inputs) :=
    ServiceRun.of_inputs inputs (List.pairwise_append.mp clock).1
  have taken : (redriveEvent inputs source now).Taken perform := Event.of_taken _ _ _
  refine earlier.extend taken fun event member => ?_
  have before : event.input ∈ inputs := by
    have mapped : event.input ∈ (Run.trace perform Store.empty inputs).map Event.input :=
      List.mem_map_of_mem member
    rwa [Run.trace_inputs] at mapped
  exact (List.pairwise_append.mp clock).2.2 event.input before _ List.mem_cons_self

/-- The message is returned once, counted as the policy allows, and the next receive moves it to the
dead-letter queue, where every receive finds it. -/
theorem message_conservation_sample :
    (∃ original row home, original.body = "hello" ∧ SameContent original row ∧
      (redriveEvent (redriveInputs "60") "source" 2).after.messages.get 1 = some row ∧
      (redriveEvent (redriveInputs "60") "source" 2).after.queues.get row.queueId = some home ∧
      home.name = "dead" ∧
      Receivable (redriveEvent (redriveInputs "60") "source" 2).after
        (queueFromRow row.queueId home) 2 1 row) ∧
    ∃ received, (redriveEvent ((redriveInputs "60").take 3) "source" 1).output =
        .ok (.received received) ∧ ∃ delivery ∈ received.deliveries,
      ∃ count : Nat, delivery.message.attributes["ApproximateReceiveCount"]? =
        some (toString count) ∧ count ≤ 1 := by
  have served := redrive_served (redriveInputs "60") "source" 2 (by decide)
  obtain ⟨conserved, counted⟩ := message_conservation redrive_laws served
  refine ⟨?_, ?_⟩
  · -- The third request is the send, and two receives come after it.
    let sent := Event.of perform (Run.final perform Store.empty ((redriveInputs "60").take 2))
      { now := 1, request := .on "source" (.send { body := "hello" }) }
    obtain ⟨queue, found⟩ : ∃ queue, (getQueue sent.before "source").toOption = some queue :=
      Option.isSome_iff_exists.mp (by decide +kernel)
    obtain ⟨answer, output, reported⟩ := rowAccepted_some (show rowAccepted sent = some 1 by
      decide +kernel)
    obtain ⟨original, _, _, _, body, _, _, kept⟩ := conserved
      (Run.trace perform Store.empty ((redriveInputs "60").take 2)) sent
      [redriveEvent ((redriveInputs "60").take 3) "source" 1,
        redriveEvent (redriveInputs "60") "source" 2] queue { body := "hello" } answer 1 rfl
      ⟨⟨"source", rfl, ok_of_toOption found⟩, output, reported⟩
    rcases kept.stored with ⟨row, home, here, same, housed, _⟩ | ⟨gone, _⟩
    rotate_left
    · exact absurd gone (by decide +kernel)
    obtain ⟨old, was⟩ : ∃ old,
        (redriveEvent (redriveInputs "60") "source" 2).before.messages.get 1 = some old :=
      Option.isSome_iff_exists.mp (by decide +kernel)
    have facts : ((redriveEvent (redriveInputs "60") "source" 2).after.messages.get 1).any
        (fun row => ((redriveEvent (redriveInputs "60") "source" 2).after.queues.get
          row.queueId).any fun home => home.name == "dead" &&
            ((redriveEvent (redriveInputs "60") "source" 2).before.messages.get 1).all
              (fun old => old.queueId != row.queueId) &&
            expired (queueFromRow row.queueId home) 2 row == false &&
            (queueFromRow row.queueId home).isFifo == false) = true := by
      decide +kernel
    rw [here, Option.any_some, housed, Option.any_some, was, Option.all_some] at facts
    simp only [Bool.and_eq_true, beq_iff_eq, bne_iff_ne] at facts
    obtain ⟨⟨⟨named, moved⟩, alive⟩, standard⟩ := facts
    obtain ⟨dlq, max, redriven, receivable⟩ := kept.moves _ (by simp) old row was here moved
    rw [redriven.target housed] at receivable
    refine ⟨original, row, home, body, same, here, housed, named, receivable alive ?_⟩
    intro fifo
    rw [standard] at fifo
    cases fifo
  · obtain ⟨queue, found, target⟩ : ∃ queue,
        (getQueue (redriveEvent ((redriveInputs "60").take 3) "source" 1).before
          "source").toOption = some queue ∧
        (deadLetterQueue (redriveEvent ((redriveInputs "60").take 3) "source" 1).before queue).map
          Prod.snd = some 1 := Option.map_eq_some_iff.mp (by decide +kernel)
    obtain ⟨⟨dlq, max⟩, target, limit⟩ := Option.map_eq_some_iff.mp target
    have asked : Asked (redriveEvent ((redriveInputs "60").take 3) "source" 1) queue
        (.receive { max := 1, visibilityTimeout := some 0, systemAttributeNames := ["All"] }) :=
      ⟨"source", rfl, ok_of_toOption found⟩
    have returned : Returned (redriveEvent ((redriveInputs "60").take 3) "source" 1) queue
        { max := 1, visibilityTimeout := some 0, systemAttributeNames := ["All"] } 1 :=
      ⟨asked, by decide +kernel⟩
    obtain ⟨response, one, delivery, listed, _⟩ := returned.served (Event.of_taken _ _ _)
    have answered := one.answered
    cases one.step with
    | receive _ received _ _ =>
      have whole : Run.trace perform Store.empty (redriveInputs "60") =
          Run.trace perform Store.empty ((redriveInputs "60").take 3) ++
            [redriveEvent ((redriveInputs "60").take 3) "source" 1] := rfl
      have member : redriveEvent ((redriveInputs "60").take 3) "source" 1 ∈
          Run.trace perform Store.empty (redriveInputs "60") ++
            [redriveEvent (redriveInputs "60") "source" 2] := by
        rw [whole]
        exact List.mem_append_left _ (List.mem_append_right _ List.mem_cons_self)
      obtain ⟨count, reported, within⟩ := counted _ member queue _ dlq max received delivery asked
        answered listed target (by decide)
      rw [show max = 1 from limit] at within
      exact ⟨received, answered, delivery, listed, count, reported, by exact_mod_cast within⟩

/-- One redrive after which a receive from the dead-letter queue returns nothing. The queue and the row
pass a test from which the proviso follows. -/
theorem not_receivable_on_arrival {proviso : SqsEvent → SqsQueue → Nat → MessageRow → Prop}
    (inputs : List Input) (source : String) (now : Int) (id : Nat)
    (clock : (inputs ++ [redriveReceive source now]).Pairwise
      fun first second => first.now ≤ second.now)
    (test : SqsQueue → MessageRow → Bool)
    (holds : ∀ queue row, test queue row = true →
      proviso (redriveEvent inputs source now) queue id row)
    (computed : ((redriveEvent inputs source now).after.messages.get id).any (fun row =>
      ((redriveEvent inputs source now).after.queues.get row.queueId).any fun home =>
        test (queueFromRow row.queueId home) row &&
        ((redriveEvent inputs source now).before.messages.get id).any
          (fun old => old.queueId != row.queueId) &&
        (receiveTx (redriveEvent inputs source now).after (queueFromRow row.queueId home)
          { max := 10 } now).toOption.any fun result =>
            result.1.deliveries.isEmpty && result.1.redriven.isEmpty) = true) :
    ¬ ReceivableOnArrival proviso := by
  intro claim
  have served := redrive_served inputs source now clock
  obtain ⟨row, here, computed⟩ := (Option.any_eq_true _ _).mp computed
  obtain ⟨home, housed, computed⟩ := (Option.any_eq_true _ _).mp computed
  obtain ⟨moved, result⟩ := Bool.and_eq_true_iff.mp computed
  obtain ⟨tested, moved⟩ := Bool.and_eq_true_iff.mp moved
  obtain ⟨old, was, moved⟩ := (Option.any_eq_true _ _).mp moved
  obtain ⟨runBefore, taken, _⟩ := served.around
  obtain ⟨dlq, max, redriven⟩ := move_cause runBefore.tidy taken was here (bne_iff_ne.mp moved)
  have target := redriven.target housed
  have receivable := claim _ _ id old row dlq max served was here redriven
    (target ▸ holds _ row tested)
  obtain ⟨received, after, done, outcome⟩ := receivable { max := 10 }
  rw [target] at done
  change receiveTx _ _ _ now = _ at done
  rw [done] at result
  simp only [Except.toOption, Option.any_some, Bool.and_eq_true, List.isEmpty_iff] at result
  obtain ⟨noDelivery, noRedrive⟩ := result
  rcases outcome with ⟨_, member, _⟩ | ⟨many, _⟩ | ⟨_, member⟩ | ⟨_, _, _, _, _, member, _⟩
  · rw [noDelivery] at member
    cases member
  · rw [noDelivery] at many
    exact absurd many (by decide)
  · rw [noRedrive] at member
    cases member
  · rw [noRedrive] at member
    cases member

/-- A FIFO queue with a message in flight, and another one whose message goes there. -/
def redriveFifoInputs : List Input :=
  [redriveCreate "dead.fifo" [("FifoQueue", "true")],
    redriveCreate "source.fifo"
      [("FifoQueue", "true"), ("RedrivePolicy", redriveText "dead.fifo")],
    { now := 1
      request := .on "dead.fifo"
        (.send { body := "first", groupId := some "group", dedupId := some "one" }) },
    { now := 1, request := .on "dead.fifo" (.receive { max := 1 }) },
    { now := 1
      request := .on "source.fifo"
        (.send { body := "second", groupId := some "group", dedupId := some "two" }) },
    redriveReceive "source.fifo" 1]

/-- **A redriven message need not be receivable**: the dead-letter queue may keep messages for a
shorter time than the message is old, and a message of its group may be in flight there. -/
theorem arrival_not_receivable :
    ¬ ReceivableOnArrival (fun _ _ _ _ => True) ∧
    ¬ ReceivableOnArrival GroupFree ∧
    ¬ ReceivableOnArrival (fun event dlq _ row => AliveIn event dlq row) := by
  have outdated : ¬ ReceivableOnArrival GroupFree := by
    refine not_receivable_on_arrival (redriveInputs "60") "source" 100000 1 (by decide)
      (fun queue _ => !queue.isFifo) (fun queue row standard fifo => ?_) (by decide +kernel)
    rw [fifo] at standard
    cases standard
  refine ⟨fun claim => outdated ?_, outdated, ?_⟩
  · intro past event id row after dlq max served was here redriven _
    exact claim past event id row after dlq max served was here redriven trivial
  · refine not_receivable_on_arrival redriveFifoInputs "source.fifo" 2 2 (by decide)
      (fun queue row => !expired queue 2 row) (fun queue row alive => ?_) (by decide +kernel)
    rw [Bool.not_eq_true'] at alive
    exact alive

end Sample

end CloudTwin.Sqs
