/-
**What a publish adds to the queues.**

The sends of a publish follow each other, and a send that SQS refuses is only logged, so the answer of
the publish says nothing about them.

* `Copy`, `copiesFrom` — what the queues have been given from a row on.
* `Ready`, `takes` — a queue that could store the message of a subscription, and whether it takes it.
* `Finishes` — the calls of one publish, one after the other.
* `fan_out` — the queues of the matching subscriptions get one message each, and no other queue gets
  any, where all of them take what they are sent.
* `message_refused` — a publish that succeeds, and a queue that is given nothing.
-/

import CloudTwin.JsonLaws
import CloudTwin.Sns.FanOut
import CloudTwin.Sqs.Configuration
import CloudTwin.Sqs.Handles

namespace CloudTwin.Sns

open Lib Lib.Text Sqs

set_option linter.unusedSectionVars false

/-! ### Messages of the queues -/

/-- What a queue has been given: a body, and the attributes as they are stored. -/
structure Copy where
  queueId : Nat
  body : String
  attributes : Option Json

def MessageRow.copy (row : MessageRow) : Copy where
  queueId := row.queueId
  body := row.body
  attributes := row.messageAttributes

/-- **The messages with a row from `first` on**, in the order of their rows. -/
def copiesFrom (first : Nat) (store : Store) : List Copy :=
  (store.messages.rows.filter fun row => decide (first ≤ row.1)).map fun row => MessageRow.copy row.2

theorem copiesFrom_next (store : Store) : copiesFrom store.messages.next store = [] := by
  have none : (store.messages.rows.filter fun row => decide (store.messages.next ≤ row.1)) = [] := by
    rw [List.filter_eq_nil_iff]
    intro row member later
    have := store.messages.below row member
    have := of_decide_eq_true later
    omega
  rw [copiesFrom, none, List.map_nil]

/-- A refresh leaves the messages of other queues. -/
theorem copiesFrom_refresh {first : Nat} {store : Store} {queue : SqsQueue} (now : Int)
    (others : ∀ copy ∈ copiesFrom first store, copy.queueId ≠ queue.id) :
    copiesFrom first (refresh store queue now) = copiesFrom first store := by
  have kept : ((store.messages.rows.filter fun row => !expired queue now row.2).filter
      fun row => decide (first ≤ row.1)) =
      store.messages.rows.filter fun row => decide (first ≤ row.1) := by
    rw [List.filter_filter]
    refine List.filter_congr fun row member => ?_
    by_cases later : first ≤ row.1
    · have other := others (MessageRow.copy row.2) (List.mem_map.mpr
        ⟨row, List.mem_filter.mpr ⟨member, decide_eq_true later⟩, rfl⟩)
      have elsewhere : (row.2.queueId == queue.id) = false := beq_eq_false_iff_ne.mpr other
      simp [expired, elsewhere]
    · simp [later]
  unfold copiesFrom
  conv_rhs => rw [← kept]
  change (((store.messages.rows.filter fun row => !expired queue now row.2).map fun row =>
    (row.1, if (row.2.queueId == queue.id && row.2.visible != decide (row.2.visibleAt ≤ now)) = true
      then { row.2 with visible := decide (row.2.visibleAt ≤ now) } else row.2)).filter
        fun row => decide (first ≤ row.1)).map (fun row => MessageRow.copy row.2) = _
  rw [List.filter_map, List.map_map]
  refine List.map_congr_left fun row _ => ?_
  simp only [Function.comp]
  split
  · rfl
  · rfl

section External

variable [external : External] [SnsFilter]

/-- The copy that a queue is given. -/
def copyOf (queue : SqsQueue) (message : String × MsgAttrs) : Copy where
  queueId := queue.id
  body := message.1
  attributes := attrsColumn message.2

/-- **A send adds one message to its queue**, and to no other. -/
theorem send_adds {first : Nat} {store after : Store} {queue : SqsQueue} {input : SendInput}
    {now : Int} {sent : Sent} (step : SendStep store queue input now sent after)
    (new : sent.row.isSome = true) (later : first ≤ store.messages.next)
    (others : ∀ copy ∈ copiesFrom first store, copy.queueId ≠ queue.id) :
    copiesFrom first after =
      copiesFrom first store ++ [copyOf queue (input.body, input.attributes)] := by
  have added : ∀ visibleAt dedupId sequenceNumber, copiesFrom first (accept (refresh store queue now)
      queue.id input now visibleAt dedupId sequenceNumber) =
        copiesFrom first store ++ [copyOf queue (input.body, input.attributes)] := by
    intro visibleAt dedupId sequenceNumber
    rw [← copiesFrom_refresh now others]
    unfold copiesFrom accept Table.insert
    rw [List.filter_append, List.map_append]
    have last : decide (first ≤ (refresh store queue now).messages.next) = true :=
      decide_eq_true later
    rw [List.filter_singleton, last]
    rfl
  cases step with
  | standard _ _ => exact added _ _ _
  | duplicate _ _ _ => cases new
  | fifo _ _ _ _ _ _ => exact added _ _ _

/-! ### A send that succeeds -/

/-- **The queue takes the message**, as far as the queue and the message alone decide. -/
def takes (queue : SqsQueue) (message : String × MsgAttrs) : Bool :=
  (checkSend queue { body := message.1, attributes := message.2 }).toBool

/-- **What SQS takes**: a body that is not empty, has only the allowed characters and, with the
attributes, not too many bytes, and ten attributes at most. -/
theorem takes_iff {queue : SqsQueue} {message : String × MsgAttrs} :
    takes queue message = true ↔ message.1.isEmpty = false ∧
      (∀ char ∈ message.1.toList, validBodyChar char = true) ∧ message.2.size ≤ maxAttributes ∧
      (messageSize { body := message.1, attributes := message.2 } : Int) ≤
        queue.attrI64 "MaximumMessageSize" := by
  obtain ⟨body, attributes⟩ := message
  have unhandled : ((∅ : MsgAttrs).toList.find? fun entry => entry.1 != "AWSTraceHeader") = none := rfl
  have delayed : sendDelay queue { body, attributes } = .ok (queue.attrI64 "DelaySeconds") := rfl
  unfold takes checkSend checkMessage
  simp only [delayed, unhandled, Sqs.rejectIf]
  cases empty : body.isEmpty with
  | true => simp [bind, Except.bind, Except.toBool]
  | false =>
    cases bad : body.toList.find? fun char => !validBodyChar char with
    | some char =>
      have refused := List.find?_some bad
      have there := List.mem_of_find?_eq_some bad
      simp only [Bool.not_eq_true'] at refused
      simp only [bind, Except.bind, Bool.false_eq_true, if_false, throw, throwThe, MonadExceptOf.throw,
        Except.toBool, true_and, false_iff]
      exact fun taken => absurd ((taken.1 char there).symm.trans refused) (by decide)
    | none =>
      have allowed : ∀ char ∈ body.toList, validBodyChar char = true := by
        simpa using List.find?_eq_none.mp bad
      by_cases few : attributes.size > maxAttributes
      · simp [bind, Except.bind, Except.toBool, few]
      · by_cases long : (messageSize { body, attributes } : Int) > queue.attrI64 "MaximumMessageSize"
        · simp [bind, Except.bind, Except.toBool, few, long]
        · exact iff_of_true (by simp [bind, Except.bind, pure, Except.pure, Except.toBool, few, long])
            ⟨rfl, allowed, not_lt.mp few, not_lt.mp long⟩

/-- **The queue of a subscription is ready for a message**: it exists, and a FIFO queue has a group and
a deduplication id that is new to it, and sequence numbers left. -/
structure Ready (drawn : String → Prop) (baseUrl : String) (note : Notification) (store : Store)
    (subscription : SubscriptionRow) (queue : SqsQueue) : Prop where
  found : getQueue store subscription.endpoint = .ok queue
  fresh : queue.isFifo = true → ∀ uuid, drawn uuid → ∃ dedupId,
    effectiveDedupId queue (sendInput queue (payload baseUrl subscription note) note.groupId
      note.dedupId uuid) = .ok dedupId ∧
    ∀ record ∈ store.dedup, record.queueId = queue.id → record.dedupId ≠ dedupId
  numbered : queue.isFifo = true → ∀ row, store.queues.get queue.id = some row →
    ∃ text, sequenceNumberOf (row.fifoSeq + 1) = .ok text

theorem insertMessage_total {store : Store} {queueId : Nat} {messageId : String} {input : SendInput}
    {now visibleAt : Int} {dedupId sequenceNumber : Option String}
    (free : handleTaken store.messages store.messages.next (pendingHandle store.drawn) = false) :
    ∃ result, insertMessage store queueId messageId input now visibleAt dedupId sequenceNumber =
      .ok result := by
  unfold insertMessage
  simp only [free, Bool.false_eq_true, if_false]
  exact ⟨_, rfl⟩

theorem sendStandard_total {store : Store} {queue : SqsQueue} {input : SendInput} {delay now : Int}
    (free : handleTaken store.messages store.messages.next (pendingHandle (store.drawn + 1)) = false) :
    ∃ sent after, sendStandard store queue input delay now = .ok (sent, after) ∧
      sent.row.isSome = true := by
  obtain ⟨⟨row, stored⟩, inserted⟩ := @insertMessage_total _ _ { store with drawn := store.drawn + 1 }
    queue.id (External.uuid store.drawn) input now (now + delay * 1000) none none free
  refine ⟨⟨sendOutcome input (External.uuid store.drawn) none, some row⟩, stored, ?_, rfl⟩
  unfold sendStandard
  simp only [inserted]
  rfl

theorem sendFifoNew_total {store : Store} {queue : SqsQueue} {input : SendInput} {dedupId text : String}
    {delay now : Int} {row : QueueRow} (found : store.queues.get queue.id = some row)
    (numbered : sequenceNumberOf (row.fifoSeq + 1) = .ok text)
    (free : handleTaken store.messages store.messages.next (pendingHandle (store.drawn + 1)) = false) :
    ∃ sent after, sendFifoNew store queue input dedupId delay now = .ok (sent, after) ∧
      sent.row.isSome = true := by
  obtain ⟨⟨id, stored⟩, inserted⟩ := @insertMessage_total _ _
    { raiseSeq store queue.id with drawn := store.drawn + 1 } queue.id (External.uuid store.drawn) input
    now (now + delay * 1000) (some dedupId) (some text) free
  have counted : nextFifoSeq store queue.id = .ok (row.fifoSeq + 1, raiseSeq store queue.id) := by
    unfold nextFifoSeq
    rw [found]
    rfl
  refine ⟨⟨sendOutcome input (External.uuid store.drawn) (some text), some id⟩,
    { stored with dedup := replaceDedup stored.dedup ⟨queue.id, dedupId, External.uuid store.drawn, text,
      now + dedupWindowMs⟩ }, ?_, rfl⟩
  unfold sendFifoNew
  rw [counted]
  change (sequenceNumberOf (row.fifoSeq + 1) >>= _) = _
  rw [numbered]
  change (insertMessage { raiseSeq store queue.id with drawn := store.drawn + 1 } queue.id
    (External.uuid store.drawn) input now (now + delay * 1000) (some dedupId) (some text) >>= _) = _
  rw [inserted]
  rfl

/-- A message that is not a duplicate is new. -/
theorem sendFifo_new {store : Store} {queue : SqsQueue} {input : SendInput} {dedupId : String}
    {delay now : Int} (effective : effectiveDedupId queue input = .ok dedupId)
    (unknown : findDedup (refresh store queue now) queue.id dedupId now = none) :
    sendFifo store queue input delay now =
      sendFifoNew (refresh store queue now) queue input dedupId delay now := by
  unfold sendFifo
  simp only [effective, bind, Except.bind, unknown]

section Sends

variable {drawn : String → Prop} {baseUrl : String} {note : Notification} {store after : Store}
  {subscription : SubscriptionRow} {queue other : SqsQueue} {input : SendInput} {now : Int} {sent : Sent}

theorem Ready.unknown (ready : Ready drawn baseUrl note store subscription queue)
    (fifo : queue.isFifo = true) {uuid : String} (draws : drawn uuid) (now : Int) :
    ∃ dedupId, effectiveDedupId queue (sendInput queue (payload baseUrl subscription note)
      note.groupId note.dedupId uuid) = .ok dedupId ∧
      findDedup (refresh store queue now) queue.id dedupId now = none := by
  obtain ⟨dedupId, effective, fresh⟩ := ready.fresh fifo uuid draws
  refine ⟨dedupId, effective, ?_⟩
  unfold findDedup
  rw [List.find?_eq_none]
  intro record member same
  simp only [Bool.and_eq_true, beq_iff_eq] at same
  exact fresh record (List.mem_of_mem_filter member) same.1.1 same.1.2

/-- **A ready queue that takes the message stores it.** -/
theorem Ready.sends (laws : UuidLaws external) (minted : Minted store.messages store.drawn)
    (ready : Ready drawn baseUrl note store subscription queue)
    (accepted : takes queue (payload baseUrl subscription note) = true) {call : PublishCall}
    (draws : drawn call.dedupUuid) :
    ∃ sent after, sendWith store subscription.endpoint (payload baseUrl subscription note) note.groupId
      note.dedupId call = .ok (sent, after) ∧ sent.row.isSome = true ∧
      SendStep store queue (sendInput queue (payload baseUrl subscription note) note.groupId
        note.dedupId call.dedupUuid) call.now sent after := by
  have free : ∀ draw, store.drawn ≤ draw → handleTaken (refresh store queue call.now).messages
      (refresh store queue call.now).messages.next (pendingHandle draw) = false :=
    fun draw later => (refresh_minted laws minted).pending_free laws _ later
  have opened : sendWith store subscription.endpoint (payload baseUrl subscription note) note.groupId
      note.dedupId call = sendTx store queue (sendInput queue (payload baseUrl subscription note)
        note.groupId note.dedupId call.dedupUuid) call.now := by
    rw [sendWith, ready.found]
    rfl
  have checked : ∃ delay, checkSend queue (sendInput queue (payload baseUrl subscription note)
      note.groupId note.dedupId call.dedupUuid) = .ok delay := by
    change (checkSend queue (sendInput queue (payload baseUrl subscription note)
      note.groupId note.dedupId call.dedupUuid)).toBool = true at accepted
    cases result : checkSend queue (sendInput queue (payload baseUrl subscription note) note.groupId
        note.dedupId call.dedupUuid) with
    | ok delay => exact ⟨delay, rfl⟩
    | error error =>
      rw [result] at accepted
      cases accepted
  obtain ⟨delay, checked⟩ := checked
  rw [opened]
  suffices stored : ∃ sent after, sendTx store queue (sendInput queue (payload baseUrl subscription note)
      note.groupId note.dedupId call.dedupUuid) call.now = .ok (sent, after) ∧ sent.row.isSome = true by
    obtain ⟨sent, after, done, new⟩ := stored
    exact ⟨sent, after, done, new, sendTx_step done⟩
  unfold sendTx
  rw [checked]
  change ∃ sent after, (if queue.isFifo = true then sendFifo store queue _ delay call.now
    else sendStandard (refresh store queue call.now) queue _ delay call.now) = .ok (sent, after) ∧ _
  cases kind : queue.isFifo with
  | false => exact sendStandard_total (free _ (Nat.le_succ _))
  | true =>
    obtain ⟨dedupId, effective, unknown⟩ := ready.unknown kind draws call.now
    obtain ⟨row, here, _, _⟩ := getQueue_row ready.found
    obtain ⟨text, numbered⟩ := ready.numbered kind row here
    rw [if_pos rfl, sendFifo_new effective unknown]
    exact sendFifoNew_total here numbered (free _ (Nat.le_succ _))

/-- A send to another queue leaves a ready queue ready. -/
theorem Ready.kept (ready : Ready drawn baseUrl note store subscription queue)
    (step : SendStep store other input now sent after) (apart : queue.id ≠ other.id) :
    Ready drawn baseUrl note after subscription queue := by
  cases step with
  | duplicate _ _ _ => exact ready
  | standard _ _ =>
    refine ⟨ready.found, fun fifo uuid draws => ?_, ready.numbered⟩
    obtain ⟨dedupId, effective, fresh⟩ := ready.fresh fifo uuid draws
    exact ⟨dedupId, effective, fun record member => fresh record (List.mem_of_mem_filter member)⟩
  | fifo _ _ _ _ _ _ =>
    refine ⟨?_, fun fifo uuid draws => ?_, fun fifo row here => ?_⟩
    · exact (getQueue_raiseSeq (refresh store other now) other.id _).trans ready.found
    · obtain ⟨dedupId, effective, fresh⟩ := ready.fresh fifo uuid draws
      refine ⟨dedupId, effective, fun record member same => ?_⟩
      rcases List.mem_append.mp member with old | new
      · exact fresh record (List.mem_of_mem_filter (List.mem_of_mem_filter old)) same
      · rw [List.mem_singleton.mp new] at same
        exact absurd same.symm apart
    · refine ready.numbered fifo row ?_
      change (store.queues.modify other.id fun row => { row with fifoSeq := row.fifoSeq + 1 }).get
        queue.id = some row at here
      rw [Table.get_modify, if_neg apart] at here
      exact here

end Sends

/-! ### The deliveries of a publish -/

/-- **A publish with no call of another request in between**: how it ends, and what it leaves. Each call
has a clock of its own, and may draw one of the given UUIDs. -/
inductive Finishes (drawn : String → Prop) :
    PublishProgress → Services → SnsResult PublishResult → Services → Prop
  | ended (result : SnsResult PublishResult) (services : Services) :
      Finishes drawn (.ends result) services result services
  | call {task : PublishTask} {services after : Services} {result : SnsResult PublishResult}
      (call : PublishCall) (draws : drawn call.dedupUuid)
      (rest : Finishes drawn (task.run call services).1 (task.run call services).2 result after) :
      Finishes drawn (.continues task) services result after

/-- The subscriptions whose filter policy matches. -/
def due (note : Notification) (subscriptions : List SubscriptionRow) : List SubscriptionRow :=
  subscriptions.filter fun subscription =>
    passesFilter subscription note && subscription.protocol == "sqs"

/-- A refused message is gone unless the subscription names a dead-letter queue. -/
theorem refused_delivery {services : Services} {note : Notification} {subscription : SubscriptionRow}
    {queue : SqsQueue} (call : PublishCall)
    (found : getQueue services.queues subscription.endpoint = .ok queue)
    (refused : takes queue (payload services.baseUrl subscription note) = false) :
    sent services (deliverySend services note subscription subscription.endpoint call) = none := by
  have opened : deliverySend services note subscription subscription.endpoint call =
      sendTx services.queues queue (sendInput queue (payload services.baseUrl subscription note)
        note.groupId note.dedupId call.dedupUuid) call.now := by
    rw [deliverySend, sendWith, found]
    rfl
  have failed : ∃ error, checkSend queue (sendInput queue (payload services.baseUrl subscription note)
      note.groupId note.dedupId call.dedupUuid) = .error error := by
    change (checkSend queue (sendInput queue (payload services.baseUrl subscription note)
      note.groupId note.dedupId call.dedupUuid)).toBool = false at refused
    cases result : checkSend queue (sendInput queue (payload services.baseUrl subscription note)
        note.groupId note.dedupId call.dedupUuid) with
    | ok delay =>
      rw [result] at refused
      cases refused
    | error error => exact ⟨error, rfl⟩
  obtain ⟨error, failed⟩ := failed
  rw [opened, sendTx, failed]
  rfl

variable {drawn : String → Prop} {note : Notification} {queueOf : SubscriptionRow → SqsQueue}

/-- What the deliveries that are still due find: queues that are ready, each with a name of its own, and
no message of this publish in any of them. -/
structure Open (drawn : String → Prop) (note : Notification) (queueOf : SubscriptionRow → SqsQueue)
    (first : Nat) (services : Services) (pending : List SubscriptionRow) : Prop where
  minted : Minted services.queues.messages services.queues.drawn
  later : first ≤ services.queues.messages.next
  ready : ∀ subscription ∈ pending,
    Ready drawn services.baseUrl note services.queues subscription (queueOf subscription)
  named : ∀ subscription ∈ pending, '|' ∉ (queueOf subscription).name.toList
  apart : pending.Pairwise fun one other => (queueOf one).id ≠ (queueOf other).id
  untouched : ∀ copy ∈ copiesFrom first services.queues, ∀ subscription ∈ pending,
    copy.queueId ≠ (queueOf subscription).id

theorem Open.tail {first : Nat} {services : Services} {subscription : SubscriptionRow}
    {pending : List SubscriptionRow}
    (opens : Open drawn note queueOf first services (subscription :: pending)) :
    Open drawn note queueOf first services pending where
  minted := opens.minted
  later := opens.later
  ready := fun other member => opens.ready other (List.mem_cons_of_mem _ member)
  named := fun other member => opens.named other (List.mem_cons_of_mem _ member)
  apart := (List.pairwise_cons.mp opens.apart).2
  untouched := fun copy there other member =>
    opens.untouched copy there other (List.mem_cons_of_mem _ member)

/-- **A delivery**: it adds its message to its queue, and leaves the others open. -/
theorem Open.deliver (laws : UuidLaws external) {first : Nat} {services : Services}
    {subscription : SubscriptionRow} {pending : List SubscriptionRow}
    (opens : Open drawn note queueOf first services (subscription :: pending)) {call : PublishCall}
    (draws : drawn call.dedupUuid)
    (accepted : takes (queueOf subscription) (payload services.baseUrl subscription note) = true) :
    ∃ after, sent services (deliverySend services note subscription subscription.endpoint call) =
        some { services with queues := after } ∧
      Open drawn note queueOf first { services with queues := after } pending ∧
      copiesFrom first after = copiesFrom first services.queues ++
        [copyOf (queueOf subscription) (payload services.baseUrl subscription note)] := by
  have ready := opens.ready subscription (List.mem_cons_self ..)
  obtain ⟨result, after, done, new, step⟩ := ready.sends laws opens.minted accepted draws
  have own : ∀ copy ∈ copiesFrom first services.queues, copy.queueId ≠ (queueOf subscription).id :=
    fun copy there => opens.untouched copy there subscription (List.mem_cons_self ..)
  have adds := send_adds step new opens.later own
  have away := (List.pairwise_cons.mp opens.apart).1
  refine ⟨after, ?_, ?_, adds⟩
  · rw [deliverySend, done]
    rfl
  · have called := @CallStep.send _ services.queues _ _ _ result after step
    exact {
      minted := minted_called laws opens.minted (opens.named subscription (List.mem_cons_self ..)) called
      later := le_trans opens.later called.drawn.2
      ready := fun other member =>
        (opens.ready other (List.mem_cons_of_mem _ member)).kept step (away other member).symm
      named := opens.tail.named
      apart := opens.tail.apart
      untouched := by
        intro copy there other member
        rw [adds] at there
        rcases List.mem_append.mp there with old | added
        · exact opens.tail.untouched copy old other member
        · rw [List.mem_singleton.mp added]
          exact away other member }

/-- A publish that has begun its deliveries succeeds, whatever they do. -/
theorem delivered_result {subscriptions : List SubscriptionRow} {services after : Services}
    {result : SnsResult PublishResult}
    (finishes : Finishes drawn (nextDelivery note subscriptions) services result after) :
    result = .ok note.result := by
  induction subscriptions generalizing services with
  | nil =>
    cases finishes
    rfl
  | cons subscription rest ih =>
    unfold nextDelivery at finishes
    split at finishes
    · cases finishes with
      | call call draws next =>
        simp only [PublishTask.run] at next
        cases done : sent services (deliverySend services note subscription subscription.endpoint call)
          with
        | some stored =>
          rw [done] at next
          exact ih next
        | none =>
          rw [done] at next
          cases names : subscription.dlq with
          | none =>
            simp only [afterDelivery, names, Option.elim_none] at next
            exact ih next
          | some dlq =>
            simp only [afterDelivery, names, Option.elim_some] at next
            cases next with
            | call call' draws' redriven => exact ih redriven
    · exact ih finishes

/-- The deliveries of a publish come to an end. -/
theorem deliveries_end {call : PublishCall} (draws : drawn call.dedupUuid)
    (subscriptions : List SubscriptionRow) (services : Services) :
    ∃ after, Finishes drawn (nextDelivery note subscriptions) services (.ok note.result) after := by
  induction subscriptions generalizing services with
  | nil => exact ⟨services, .ended _ _⟩
  | cons subscription rest ih =>
    unfold nextDelivery
    split
    · suffices goesOn : ∃ after, Finishes drawn
          (PublishTask.run call (.deliver note subscription rest) services).1
          (PublishTask.run call (.deliver note subscription rest) services).2 (.ok note.result) after by
        obtain ⟨after, next⟩ := goesOn
        exact ⟨after, Finishes.call call draws next⟩
      simp only [PublishTask.run]
      cases sent services (deliverySend services note subscription subscription.endpoint call) with
      | some stored => exact ih stored
      | none =>
        cases names : subscription.dlq with
        | none =>
          simp only [afterDelivery, names, Option.elim_none]
          exact ih services
        | some dlq =>
          simp only [afterDelivery, names, Option.elim_some]
          obtain ⟨after, redriven⟩ := ih ((sent services
            (deliverySend services note subscription dlq call)).getD services)
          refine ⟨after, Finishes.call call draws ?_⟩
          simp only [PublishTask.run]
          exact redriven
    · exact ih services

/-- **The deliveries of a publish**: each matching subscription whose queue takes the message gets it in
its queue, and nothing else is added. -/
theorem delivered (laws : UuidLaws external) {first : Nat} {subscriptions : List SubscriptionRow}
    {services after : Services} {result : SnsResult PublishResult}
    (opens : Open drawn note queueOf first services (due note subscriptions))
    (kept : ∀ subscription ∈ due note subscriptions,
      takes (queueOf subscription) (payload services.baseUrl subscription note) = true ∨
        subscription.dlq = none)
    (finishes : Finishes drawn (nextDelivery note subscriptions) services result after) :
    copiesFrom first after.queues = copiesFrom first services.queues ++
      ((due note subscriptions).filter fun subscription =>
        takes (queueOf subscription) (payload services.baseUrl subscription note)).map
          fun subscription => copyOf (queueOf subscription) (payload services.baseUrl subscription note) := by
  induction subscriptions generalizing services with
  | nil =>
    cases finishes
    exact (List.append_nil _).symm
  | cons subscription rest ih =>
    unfold nextDelivery at finishes
    by_cases matching : (passesFilter subscription note && subscription.protocol == "sqs") = true
    · have listed : due note (subscription :: rest) = subscription :: due note rest := by
        rw [due, List.filter_cons, if_pos matching]
        rfl
      rw [if_pos matching] at finishes
      rw [listed] at opens kept ⊢
      cases finishes with
      | call call draws next =>
        simp only [PublishTask.run] at next
        by_cases accepted : takes (queueOf subscription)
            (payload services.baseUrl subscription note) = true
        · obtain ⟨stored, sends, open', adds⟩ := opens.deliver laws draws accepted
          rw [sends] at next
          have copies := ih open' (fun other member => kept other (List.mem_cons_of_mem _ member)) next
          rw [copies, adds, List.filter_cons, if_pos accepted, List.append_assoc]
          rfl
        · have refused := Bool.eq_false_iff.mpr accepted
          have gone := refused_delivery call (opens.ready subscription (List.mem_cons_self ..)).found
            refused
          have none := (kept subscription (List.mem_cons_self ..)).resolve_left accepted
          rw [gone] at next
          simp only [afterDelivery, none, Option.elim_none] at next
          have copies := ih opens.tail (fun other member =>
            kept other (List.mem_cons_of_mem _ member)) next
          rw [copies, List.filter_cons, if_neg accepted]
    · have listed : due note (subscription :: rest) = due note rest := by
        rw [due, List.filter_cons, if_neg matching]
        rfl
      rw [if_neg matching] at finishes
      rw [listed] at opens kept ⊢
      exact ih opens kept finishes

/-! ### What a document says -/

theorem attributeMember_ordered {levels : Nat} (entry : String × MsgAttr) :
    Ordered (levels + 1) (attributeMember entry).2 := by
  have keys : ["Type", "Value"].Pairwise (· < ·) := by decide
  refine .obj _ keys fun member there => ?_
  rcases List.mem_pair.mp there with rfl | rfl
  · exact .str _
  · exact .str _

theorem attributes_ordered {levels : Nat} (attrs : MsgAttrs) :
    Ordered (levels + 2) (.obj (attrs.toList.map attributeMember)) := by
  refine .obj _ ?_ fun member there => ?_
  · rw [List.map_map]
    have keys : attrs.toList.map (Prod.fst ∘ attributeMember) = attrs.keys := by
      rw [← Std.ExtTreeMap.map_fst_toList_eq_keys]
      rfl
    rw [keys]
    exact Std.ExtTreeMap.ordered_keys.imp fun less => compare_lt_iff_lt.mp less
  · obtain ⟨entry, _, rfl⟩ := List.mem_map.mp there
    exact attributeMember_ordered entry

theorem textMember_ordered {levels : Nat} {name text : String} {member : String × Json}
    (same : textMember name text = some member) : Ordered levels member.2 := by
  cases same
  exact .str _

/-- **The document has its keys in order.** -/
theorem envelope_ordered (baseUrl : String) (subscription : SubscriptionRow) (note : Notification) :
    Parsed (envelope baseUrl subscription note) := by
  refine .obj _ ?_ fun member there => ?_
  · unfold envelopeMembers attributesMember
    cases note.attributes.isEmpty <;> cases note.sequenceNumber <;> cases note.subject <;>
      (simp only [textMember, List.filterMap, id, List.map, Option.bind, if_true, if_false,
        Bool.false_eq_true]; decide)
  · obtain ⟨entry, listed, same⟩ := List.mem_filterMap.mp there
    have same : entry = some member := same
    subst same
    have optional : ∀ {name : String} {text : Option String},
        text.bind (textMember name) = some member → Ordered 126 member.2 := by
      intro name text given
      obtain ⟨_, _, same⟩ := Option.bind_eq_some_iff.mp given
      exact textMember_ordered same
    simp only [envelopeMembers, List.mem_cons, List.not_mem_nil, or_false] at listed
    rcases listed with same | same | same | same | same | same | same | same | same | same | same | same
    case inr.inl =>
      unfold attributesMember at same
      split at same
      · cases same
      · cases same
        exact attributes_ordered note.attributes
    all_goals first
      | exact textMember_ordered same.symm
      | exact optional same.symm

/-- **What the document says of the message.** -/
theorem envelope_reads (baseUrl : String) (subscription : SubscriptionRow) (note : Notification) :
    (envelope baseUrl subscription note).get "Message" = some (.str (note.bodyFor subscription.protocol)) ∧
    (envelope baseUrl subscription note).get "Subject" = note.subject.map Json.str ∧
    (envelope baseUrl subscription note).get "MessageId" = some (.str note.messageId) ∧
    (envelope baseUrl subscription note).get "TopicArn" = some (.str note.topicArn) ∧
    (envelope baseUrl subscription note).get "MessageAttributes" =
      if note.attributes.isEmpty then none
      else some (.obj (note.attributes.toList.map attributeMember)) := by
  unfold envelope Json.get envelopeMembers attributesMember
  cases note.attributes.isEmpty <;> cases note.sequenceNumber <;> cases note.subject <;>
    simp [textMember, List.lookup]

/-- An attribute that SNS takes can be read back from the document. -/
theorem attributeText_reads {attr : MsgAttr} (supported : isSupported attr = true) :
    (attr.isBinary = true ∧ Base64.standardDecode (attributeText attr) = attr.binaryValue) ∨
      (attr.isBinary = false ∧ some (attributeText attr) = attr.stringValue) := by
  have kinds : (attr.isBinary = true → attr.binaryValue.isSome = true) ∧
      (attr.isBinary = false → attr.stringValue.isSome = true) := by
    have text : attr.isBinary = false → attr.stringValue.isSome = true →
        (attr.isBinary = true → attr.binaryValue.isSome = true) ∧
          (attr.isBinary = false → attr.stringValue.isSome = true) := by
      intro plain here
      exact ⟨fun binary => absurd (binary.symm.trans plain) (by decide), fun _ => here⟩
    have bytes : attr.isBinary = true → attr.binaryValue.isSome = true →
        (attr.isBinary = true → attr.binaryValue.isSome = true) ∧
          (attr.isBinary = false → attr.stringValue.isSome = true) := by
      intro binary here
      exact ⟨fun _ => here, fun plain => absurd (binary.symm.trans plain) (by decide)⟩
    unfold isSupported at supported
    simp only at supported
    split at supported
    · rename_i kind
      refine text ?_ supported
      rcases kind with same | same
      · rw [MsgAttr.isBinary, same]
        decide
      · rw [MsgAttr.isBinary, same]
        decide
    · split at supported
      · rename_i kind
        refine text (by rw [MsgAttr.isBinary, kind]; decide) ?_
        cases value : attr.stringValue with
        | some text => rfl
        | none =>
          rw [value] at supported
          cases supported
      · split at supported
        · rename_i kind
          exact bytes (by rw [MsgAttr.isBinary, kind]; decide) supported
        · split at supported
          · rename_i kind
            refine text ?_ supported
            rcases kind with string | number
            · exact isBinary_of_base (beforeFirst_of_start "String" (by decide) string) (by decide)
                (by decide)
            · exact isBinary_of_base (beforeFirst_of_start "Number" (by decide) number) (by decide)
                (by decide)
          · split at supported
            · rename_i kind
              refine bytes ?_ supported
              rw [MsgAttr.isBinary, startsWith_iff]
              have start : "Binary".toList <+: "Binary.".toList := by decide
              exact start.trans (startsWith_iff.mp kind)
            · cases supported
  cases binary : attr.isBinary with
  | true =>
    obtain ⟨bytes, same⟩ := Option.isSome_iff_exists.mp (kinds.1 binary)
    refine Or.inl ⟨rfl, ?_⟩
    rw [attributeText, if_pos binary, same]
    exact standard_decode_encode bytes
  | false =>
    obtain ⟨text, same⟩ := Option.isSome_iff_exists.mp (kinds.2 binary)
    refine Or.inr ⟨rfl, ?_⟩
    rw [attributeText, binary, same]
    rfl

/-! ### A publish -/

/-- The request is a publish to the topic. -/
structure ToTopic (request : TopicRequest) (arn : String) : Prop where
  target : request.topicArn = some arn
  named : arn.isEmpty = false
  topic : (findSub ":endpoint/".toList arn.toList).isSome = false

/-- **A publish of a request**, whose first call is given: it stores nothing. -/
def Publishes (drawn : String → Prop) (request : TopicRequest) (first : PublishCall)
    (services : Services) (result : SnsResult PublishResult) (after : Services) : Prop :=
  Finishes drawn (begun (beginPublish services.topics request first)) services result after

/-- **The message that a publish to a topic fans out.** -/
structure Carries (topic : TopicRow) (request : TopicRequest) (first : PublishCall)
    (note : Notification) : Prop where
  bodies : messageBodies request.toPublishRequest = .ok note.bodies
  attributes : note.attributes = request.attributes
  supported : ∀ entry ∈ request.attributes.toList, isSupported entry.2 = true
  group : messageGroup topic.published request.toPublishRequest = .ok (note.groupId, note.dedupId)
  topicArn : note.topicArn = topic.arn
  subject : note.subject = request.subject
  messageId : note.messageId = first.messageId
  timestamp : note.timestamp = first.timestamp
  unnumbered : topic.isFifo = false → note.sequenceNumber = none

theorem beginPublish_topic {store : SnsStore} {request : TopicRequest} {arn : String} {topic : TopicRow}
    {call : PublishCall} {progress : PublishProgress} (target : ToTopic request arn)
    (found : findTopic store arn = some topic)
    (done : beginPublish store request call = .ok progress) :
    ∃ note, Carries topic request call note ∧
      progress = .continues (if topic.isFifo then .nextSequence note else .listSubscriptions note) := by
  obtain ⟨_, checked, done⟩ := Lib.bind_ok done
  obtain ⟨bodies, structured, done⟩ := Lib.bind_ok done
  have kept : (request.topicArn.filter fun target => !target.isEmpty) = some arn := by
    rw [target.target, Option.filter_some, target.named]
    rfl
  rw [kept] at done
  simp only [target.topic, Bool.false_eq_true, if_false] at done
  obtain ⟨row, here, done⟩ := Lib.bind_ok done
  rw [found] at here
  cases here
  obtain ⟨note, prepared, done⟩ := Lib.bind_ok done
  obtain ⟨⟨groupId, dedupId⟩, grouped, prepared⟩ := Lib.bind_ok prepared
  cases prepared
  cases done
  exact ⟨_, ⟨structured, rfl, checkPublish_supported checked, grouped, rfl, rfl, rfl, rfl,
    fun _ => rfl⟩, rfl⟩

/-- **Where a publish to a topic starts its deliveries**: the message is known, and the queues are as
they were. -/
theorem publish_delivers {services after : Services} {request : TopicRequest} {arn : String}
    {topic : TopicRow} {first : PublishCall} {result : PublishResult} (target : ToTopic request arn)
    (found : findTopic services.topics arn = some topic)
    (publishes : Publishes drawn request first services (.ok result) after) :
    ∃ note topics, Carries topic request first note ∧
      Finishes drawn (nextDelivery note (listSubscriptions services.topics topic.arn))
        { services with topics } (.ok result) after := by
  have lists : ∀ {note : Notification} {services : Services},
      Finishes drawn (.continues (.listSubscriptions note)) services (.ok result) after →
      Finishes drawn (nextDelivery note (listSubscriptions services.topics note.topicArn)) services
        (.ok result) after := by
    intro note services listing
    cases listing with
    | call call draws rest => exact rest
  unfold Publishes at publishes
  cases begins : beginPublish services.topics request first with
  | error error =>
    rw [begins] at publishes
    cases publishes
  | ok progress =>
    obtain ⟨note, carries, rfl⟩ := beginPublish_topic target found begins
    rw [begins] at publishes
    simp only [begun] at publishes
    cases fifo : topic.isFifo with
    | false =>
      rw [fifo] at publishes
      have listed := lists publishes
      rw [carries.topicArn] at listed
      exact ⟨note, services.topics, carries, listed⟩
    | true =>
      rw [fifo, if_pos rfl] at publishes
      cases publishes with
      | call call draws rest =>
        simp only [PublishTask.run] at rest
        cases numbers : Sns.nextSequence services.topics note.topicArn with
        | error error =>
          rw [numbers] at rest
          cases rest
        | ok drawn =>
          obtain ⟨number, topics⟩ := drawn
          rw [numbers] at rest
          have same : listSubscriptions topics note.topicArn =
              listSubscriptions services.topics topic.arn := by
            obtain ⟨_, _, numbers⟩ := Lib.bind_ok numbers
            obtain ⟨_, _, numbers⟩ := Lib.bind_ok numbers
            cases numbers
            rw [carries.topicArn]
            rfl
          have listed : Finishes drawn (nextDelivery { note with sequenceNumber := some number }
              (listSubscriptions topics note.topicArn)) { services with topics } (.ok result) after :=
            lists rest
          rw [same] at listed
          exact ⟨{ note with sequenceNumber := some number }, topics,
            { carries with unnumbered := fun plain => absurd (fifo.symm.trans plain) (by decide) }, listed⟩

/-- The queues of the subscriptions exist, are different, and are ready for the message. -/
structure Targets (drawn : String → Prop) (note : Notification) (services : Services)
    (queueOf : SubscriptionRow → SqsQueue) (subscriptions : List SubscriptionRow) : Prop where
  ready : ∀ subscription ∈ subscriptions,
    Ready drawn services.baseUrl note services.queues subscription (queueOf subscription)
  apart : subscriptions.Pairwise fun one other => (queueOf one).id ≠ (queueOf other).id

/-- **One message for each subscription**, in its queue. -/
def owed (baseUrl : String) (note : Notification) (queueOf : SubscriptionRow → SqsQueue)
    (subscriptions : List SubscriptionRow) : List Copy :=
  subscriptions.map fun subscription =>
    copyOf (queueOf subscription) (payload baseUrl subscription note)

/-- **Every queue takes what it is sent.** -/
def Taken (baseUrl : String) (note : Notification) (queueOf : SubscriptionRow → SqsQueue)
    (subscriptions : List SubscriptionRow) : Prop :=
  ∀ subscription ∈ subscriptions,
    takes (queueOf subscription) (payload baseUrl subscription note) = true

/-- **The document reads back as the message was published.** -/
structure ReadsBack (request : TopicRequest) (topic : TopicRow) (result : PublishResult) (body : String)
    (document : Json) : Prop where
  message : document.get "Message" = some (.str body)
  subject : document.get "Subject" = request.subject.map Json.str
  messageId : document.get "MessageId" = some (.str result.messageId)
  topicArn : document.get "TopicArn" = some (.str topic.arn)
  attributes : document.get "MessageAttributes" = if request.attributes.isEmpty then none
    else some (.obj (request.attributes.toList.map attributeMember))
  values : ∀ entry ∈ request.attributes.toList,
    (entry.2.isBinary = true ∧ Base64.standardDecode (attributeText entry.2) = entry.2.binaryValue) ∨
      (entry.2.isBinary = false ∧ some (attributeText entry.2) = entry.2.stringValue)

/-- The subscriptions that a publish owes the message. -/
abbrev matching (services : Services) (topic : TopicRow) (note : Notification) : List SubscriptionRow :=
  due note (listSubscriptions services.topics topic.arn)

/-- **Fan-out loses and invents nothing where the queues take what they are sent.** A publish to a topic
that succeeds carries one message. If the queues of the matching subscriptions are there for it, they
are given one message each and no queue is given anything else when all of them take it, and, unless a
subscription names a dead-letter queue, only then. What is sent is the text of the message, or a document
that reads back as it was published. -/
theorem fan_out (laws : UuidLaws external) {history : List SqsEvent} {services after : Services}
    (served : ServiceRun history services.queues) {request : TopicRequest} {arn : String}
    {topic : TopicRow} {first : PublishCall} {result : PublishResult} (target : ToTopic request arn)
    (found : findTopic services.topics arn = some topic)
    (publishes : Publishes drawn request first services (.ok result) after) :
    ∃ note, Carries topic request first note ∧
      (∀ queueOf, Targets drawn note services queueOf (matching services topic note) →
        (Taken services.baseUrl note queueOf (matching services topic note) →
          copiesFrom services.queues.messages.next after.queues =
            owed services.baseUrl note queueOf (matching services topic note)) ∧
        ((∀ subscription ∈ matching services topic note, subscription.dlq = none) →
          copiesFrom services.queues.messages.next after.queues =
            owed services.baseUrl note queueOf (matching services topic note) →
          Taken services.baseUrl note queueOf (matching services topic note))) ∧
      ∀ subscription, (subscription.rawDelivery = true →
          payload services.baseUrl subscription note = (note.bodyFor "sqs", request.attributes)) ∧
        (subscription.rawDelivery = false → JsonLaws external → ∃ document,
          External.jsonFromStr (payload services.baseUrl subscription note).1 = some document ∧
            ReadsBack request topic result (note.bodyFor subscription.protocol) document) := by
  obtain ⟨note, topics, carries, delivers⟩ := publish_delivers target found publishes
  have answered : note.result = result := (Except.ok.inj (delivered_result delivers)).symm
  refine ⟨note, carries, fun queueOf targets => ?_, fun subscription => ⟨fun raw => ?_,
    fun wrapped json => ?_⟩⟩
  · have opens : Open drawn note queueOf services.queues.messages.next { services with topics }
        (matching services topic note) := {
      minted := served.minted laws
      later := le_rfl
      ready := targets.ready
      named := fun subscription member => served.tidy.queueBar (targets.ready subscription member).found
      apart := targets.apart
      untouched := by
        intro copy there
        rw [copiesFrom_next] at there
        cases there }
    have outcome := fun kept => delivered laws opens kept delivers
    simp only [copiesFrom_next, List.nil_append] at outcome
    refine ⟨fun all => ?_, fun lost same => ?_⟩
    · have copies := outcome fun subscription member => Or.inl (all subscription member)
      rw [List.filter_eq_self.mpr all] at copies
      exact copies
    · have copies := outcome fun subscription member => Or.inr (lost subscription member)
      have lengths := congrArg List.length (copies.symm.trans same)
      rw [owed, List.length_map, List.length_map] at lengths
      exact List.length_filter_eq_length_iff.mp lengths
  · rw [payload, if_pos raw, carries.attributes]
  · obtain ⟨message, subject, id, arn, attributes⟩ := envelope_reads services.baseUrl subscription note
    refine ⟨envelope services.baseUrl subscription note, ?_, message, ?_, ?_, ?_, ?_, ?_⟩
    · rw [payload, wrapped]
      exact json.reads _ (envelope_ordered services.baseUrl subscription note)
    · rw [subject, carries.subject]
    · rw [id, ← answered]
      rfl
    · rw [arn, carries.topicArn]
    · rw [attributes, carries.attributes]
    · exact fun entry member => attributeText_reads (carries.supported entry member)

/-- The end of a publish whose calls are all made with the same clock. -/
def finish (call : PublishCall) : Nat → PublishProgress → Services →
    Option (SnsResult PublishResult × Services)
  | _, .ends result, services => some (result, services)
  | 0, .continues _, _ => none
  | count + 1, .continues task, services =>
    finish call count (task.run call services).1 (task.run call services).2

theorem finishes_of_finish {call : PublishCall} (draws : drawn call.dedupUuid) {count : Nat}
    {progress : PublishProgress} {services after : Services} {result : SnsResult PublishResult}
    (done : finish call count progress services = some (result, after)) :
    Finishes drawn progress services result after := by
  induction count generalizing progress services with
  | zero =>
    cases progress with
    | ends answer =>
      cases done
      exact .ended _ _
    | continues task => cases done
  | succ count ih =>
    cases progress with
    | ends answer =>
      cases done
      exact .ended _ _
    | continues task => exact .call call draws (ih done)

/-- A publish that ends with success, and how many messages it adds to the queues. -/
theorem finishes_ok {call : PublishCall} {count : Nat} {progress : PublishProgress}
    {services : Services} (copies : Nat) (computed : (finish call count progress services).map
      (fun done => (done.1.toBool, (copiesFrom services.queues.messages.next done.2.queues).length)) =
        some (true, copies)) :
    ∃ result after, Finishes (fun _ => True) progress services (.ok result) after ∧
      (copiesFrom services.queues.messages.next after.queues).length = copies := by
  obtain ⟨⟨answer, after⟩, done, same⟩ := Option.map_eq_some_iff.mp computed
  obtain ⟨succeeds, given⟩ := Prod.mk.inj same
  cases answer with
  | error error => cases succeeds
  | ok result => exact ⟨result, after, finishes_of_finish trivial done, given⟩

/-- A standard queue that is found, with the default attributes as far as messages go. -/
theorem queue_found {store : Store} {endpoint : String} {id : Nat}
    (computed : (getQueue store endpoint).toOption.map (fun queue =>
      (queue.id, queue.isFifo, queue.attrI64 "MaximumMessageSize")) = some (id, false, 262144)) :
    ∃ queue, getQueue store endpoint = .ok queue ∧ queue.id = id ∧ queue.isFifo = false ∧
      queue.attrI64 "MaximumMessageSize" = 262144 := by
  obtain ⟨queue, found, same⟩ := Option.map_eq_some_iff.mp computed
  obtain ⟨numbered, same⟩ := Prod.mk.inj same
  obtain ⟨plain, limit⟩ := Prod.mk.inj same
  exact ⟨queue, ok_of_toOption found, numbered, plain, limit⟩

theorem utf8ByteSize_le (text : String) : text.utf8ByteSize ≤ 4 * text.toList.length := by
  have each : ∀ size ∈ text.toList.map fun char => (String.utf8EncodeChar char).length, size ≤ 4 := by
    intro size member
    obtain ⟨char, _, rfl⟩ := List.mem_map.mp member
    exact (String.length_utf8EncodeChar char).trans_le char.utf8Size_le_four
  have sum := List.sum_le_card_nsmul _ 4 each
  rw [List.length_map, smul_eq_mul] at sum
  rw [← utf8_length, utf8, List.length_flatMap]
  omega

/-- A queue takes a printed document that is not too long. -/
theorem printed_taken {queue : SqsQueue} {value : Json}
    (limit : queue.attrI64 "MaximumMessageSize" = 262144) (filled : printValue value ≠ [])
    (allowed : (printValue value).all validBodyChar = true) (short : (printValue value).length ≤ 1000) :
    takes queue (printJson value, ∅) = true := by
  have chars : (printJson value).toList = printValue value := String.toList_ofList
  have size := utf8ByteSize_le (printJson value)
  rw [chars] at size
  refine takes_iff.mpr ⟨Bool.eq_false_iff.mpr fun empty => filled ?_, ?_, Nat.zero_le _, ?_⟩
  · have empty : printJson value = "" := String.isEmpty_iff.mp empty
    rw [← chars, empty]
    rfl
  · rw [chars]
    exact List.all_eq_true.mp allowed
  · have counted : messageSize { body := printJson value, attributes := ∅ } =
        (printJson value).utf8ByteSize := rfl
    rw [limit, counted]
    omega

end External

/-! ### A topic with two subscriptions -/

def plainTopic : TopicRow where
  arn := topicArn "t"
  name := "t"
  attributes := ∅
  tags := ∅
  fifoSeq := 0

def rawSubscription : SubscriptionRow where
  arn := topicArn "t:s"
  topicArn := topicArn "t"
  protocol := "sqs"
  endpoint := queueArn "orders"
  attributes := (∅ : BTreeMap String).insert "RawMessageDelivery" "true"

def wrappedSubscription : SubscriptionRow where
  arn := topicArn "t:w"
  topicArn := topicArn "t"
  protocol := "sqs"
  endpoint := queueArn "audit"
  attributes := ∅

def auditCreate : Input where
  now := 0
  request := .createQueue "audit" "http://localhost:4566/000000000000/audit" ∅ ∅

/-- A topic whose messages go to two queues: as they are to the one, in a document to the other. -/
def twoServices [External] : Services where
  baseUrl := "http://localhost"
  topics := { topics := [plainTopic], subscriptions := [rawSubscription, wrappedSubscription], drawn := 0 }
  queues := Run.final perform Store.empty [sampleCreate 0, auditCreate]

/-- A topic with a raw subscription of a queue. -/
def rawServices [External] : Services where
  baseUrl := "http://localhost"
  topics := { topics := [plainTopic], subscriptions := [rawSubscription], drawn := 0 }
  queues := (Sqs.perform Store.empty (sampleCreate 0)).2

def kindAttribute : MsgAttrs :=
  (∅ : MsgAttrs).insert "kind" { dataType := "String", stringValue := some "note", binaryValue := none }

def rawRequest (message : String) : TopicRequest where
  message := message
  subject := none
  messageStructure := none
  attributes := ∅
  groupId := none
  dedupId := none
  topicArn := some (topicArn "t")
  phoneNumber := none

/-- A request with a subject and an attribute. -/
def fullRequest : TopicRequest :=
  { rawRequest "hello" with subject := some "greeting", attributes := kindAttribute }

def rawCall : PublishCall where
  now := 0
  timestamp := "2026-01-01T00:00:00.000Z"
  messageId := "m"
  dedupUuid := ""

/-- The message of the request. -/
def fullNote : Notification where
  bodies := (∅ : BTreeMap String).insert "default" "hello"
  attributes := kindAttribute
  groupId := none
  dedupId := none
  messageId := "m"
  topicArn := topicArn "t"
  subject := some "greeting"
  timestamp := "2026-01-01T00:00:00.000Z"
  sequenceNumber := none

section Printed

attribute [local instance] printedJson SnsFilter.sample

theorem target_full : ToTopic fullRequest plainTopic.arn :=
  ⟨rfl, by decide, by decide⟩

theorem full_carries {note : Notification} (carries : Carries plainTopic fullRequest rawCall note) :
    note = fullNote := by
  obtain ⟨bodies, attributes, _, group, topicArn, subject, messageId, timestamp, unnumbered⟩ := carries
  have plain : plainTopic.isFifo = false := by decide
  have grouped : messageGroup plainTopic.published fullRequest.toPublishRequest = .ok (none, none) := by
    rw [messageGroup, TopicRow.published, plain]
    rfl
  obtain ⟨groupId, dedupId⟩ := Prod.mk.inj (Except.ok.inj (grouped.symm.trans group))
  obtain ⟨⟨_, _, _, _⟩, _, _, _, _, _⟩ := note
  simp only [fullNote, Outgoing.mk.injEq, Notification.mk.injEq]
  exact ⟨⟨(Except.ok.inj bodies).symm, attributes, groupId.symm, dedupId.symm⟩, messageId, topicArn,
    subject, timestamp, unnumbered plain⟩

theorem two_served : ServiceRun
    (Run.trace (@perform printedJson) Store.empty [sampleCreate 0, auditCreate]) twoServices.queues :=
  ServiceRun.of_inputs [sampleCreate 0, auditCreate] (by decide)

theorem two_listed : listSubscriptions twoServices.topics (topicArn "t") =
    [rawSubscription, wrappedSubscription] := by
  have sorted : [rawSubscription, wrappedSubscription].Pairwise
      fun first second => decide (first.arn ≤ second.arn) = true := by
    decide
  exact List.mergeSort_of_pairwise sorted

theorem matching_two :
    matching twoServices plainTopic fullNote = [rawSubscription, wrappedSubscription] := by
  have passes : ∀ subscription ∈ [rawSubscription, wrappedSubscription],
      (passesFilter subscription fullNote && subscription.protocol == "sqs") = true := by
    decide
  rw [matching, plainTopic, two_listed, due, List.filter_eq_self.mpr passes]

theorem two_publishes : ∃ after,
    Publishes (fun _ => True) fullRequest rawCall twoServices (.ok fullNote.result) after := by
  have begun : (beginPublish twoServices.topics fullRequest rawCall).toBool = true := by decide
  obtain ⟨progress, begins⟩ : ∃ progress,
      beginPublish twoServices.topics fullRequest rawCall = .ok progress := by
    cases result : beginPublish twoServices.topics fullRequest rawCall with
    | ok progress => exact ⟨progress, rfl⟩
    | error error =>
      rw [result] at begun
      cases begun
  obtain ⟨note, carries, rfl⟩ := beginPublish_topic target_full rfl begins
  have plain : plainTopic.isFifo = false := by decide
  rw [full_carries carries, plain, if_neg Bool.false_ne_true] at begins
  obtain ⟨after, finishes⟩ := @deliveries_end _ _ (fun _ => True) fullNote rawCall trivial
    (listSubscriptions twoServices.topics fullNote.topicArn) twoServices
  have listing : Finishes (fun _ => True) (.continues (.listSubscriptions fullNote)) twoServices
      (.ok fullNote.result) after := by
    refine Finishes.call rawCall trivial ?_
    simp only [PublishTask.run]
    exact finishes
  refine ⟨after, ?_⟩
  rw [Publishes, begins]
  exact listing

theorem document_taken {queue : SqsQueue} (limit : queue.attrI64 "MaximumMessageSize" = 262144) :
    takes queue (payload twoServices.baseUrl wrappedSubscription fullNote) = true := by
  have wrapped : wrappedSubscription.rawDelivery = false := by decide
  have text : ((printValue (envelope twoServices.baseUrl wrappedSubscription fullNote)).all validBodyChar &&
      decide ((printValue (envelope twoServices.baseUrl wrappedSubscription fullNote)).length ≤ 1000)) =
        true := by
    decide +kernel
  obtain ⟨allowed, short⟩ := Bool.and_eq_true_iff.mp text
  rw [payload, wrapped, if_neg Bool.false_ne_true]
  exact printed_taken limit (List.cons_ne_nil _ _) allowed (of_decide_eq_true short)

/-- A message with an attribute goes to two queues: as it is to one, in a document to the other. -/
theorem fan_out_sample : ∃ result after orders audit text document,
    Publishes (fun _ => True) fullRequest rawCall twoServices (.ok result) after ∧
      getQueue twoServices.queues rawSubscription.endpoint = .ok orders ∧
      getQueue twoServices.queues wrappedSubscription.endpoint = .ok audit ∧
      copiesFrom twoServices.queues.messages.next after.queues =
        [copyOf orders ("hello", kindAttribute), copyOf audit (text, ∅)] ∧
      External.jsonFromStr text = some document ∧
      ReadsBack fullRequest plainTopic result "hello" document := by
  obtain ⟨after, publishes⟩ := two_publishes
  obtain ⟨orders, ordersFound, ordersId, ordersPlain, ordersLimit⟩ := @queue_found _ _
    twoServices.queues rawSubscription.endpoint 1 (by decide)
  obtain ⟨audit, auditFound, auditId, auditPlain, auditLimit⟩ := @queue_found _ _
    twoServices.queues wrappedSubscription.endpoint 2 (by decide)
  obtain ⟨note, carries, outcome, texts⟩ :=
    fan_out printed_uuids two_served target_full rfl publishes
  rw [full_carries carries, matching_two] at outcome
  rw [full_carries carries] at texts
  have raw : payload twoServices.baseUrl rawSubscription fullNote = ("hello", kindAttribute) := by
    have body : fullNote.bodyFor "sqs" = "hello" := by decide
    rw [(texts rawSubscription).1 (by decide), body]
    rfl
  have differ : orders.id ≠ audit.id := by
    rw [ordersId, auditId]
    decide
  let queueOf : SubscriptionRow → SqsQueue :=
    fun subscription => if subscription.rawDelivery then orders else audit
  have rawQueue : queueOf rawSubscription = orders := if_pos (by decide)
  have wrappedQueue : queueOf wrappedSubscription = audit := if_neg (by decide)
  have targets : Targets (fun _ => True) fullNote twoServices queueOf
      [rawSubscription, wrappedSubscription] := by
    refine ⟨fun subscription member => ?_, List.pairwise_pair.mpr (by rwa [rawQueue, wrappedQueue])⟩
    rcases List.mem_pair.mp member with rfl | rfl
    · rw [rawQueue]
      exact ⟨ordersFound, fun fifo => absurd (fifo.symm.trans ordersPlain) (by decide),
        fun fifo => absurd (fifo.symm.trans ordersPlain) (by decide)⟩
    · rw [wrappedQueue]
      exact ⟨auditFound, fun fifo => absurd (fifo.symm.trans auditPlain) (by decide),
        fun fifo => absurd (fifo.symm.trans auditPlain) (by decide)⟩
  have copies := (outcome queueOf targets).1 fun subscription member => by
    rcases List.mem_pair.mp member with rfl | rfl
    · rw [rawQueue, raw]
      have small : messageSize { body := "hello", attributes := kindAttribute } ≤ 262144 := by
        decide
      exact takes_iff.mpr ⟨by decide, List.all_eq_true.mp (by decide), by decide,
        ordersLimit ▸ Int.ofNat_le.mpr small⟩
    · rw [wrappedQueue]
      exact document_taken auditLimit
  obtain ⟨document, reads, reading⟩ := (texts wrappedSubscription).2 (by decide) printed_laws
  refine ⟨_, after, orders, audit, _, document, publishes, ordersFound, auditFound, ?_, reads, reading⟩
  rw [copies, owed, List.map_cons, List.map_singleton, rawQueue, wrappedQueue, raw]
  rfl

end Printed

section Sample

attribute [local instance] External.sample SnsFilter.sample

theorem raw_served :
    ServiceRun (Run.trace Sqs.perform Store.empty [sampleCreate 0]) rawServices.queues :=
  ServiceRun.of_inputs [sampleCreate 0] (by decide)

theorem matching_raw (note : Notification) :
    matching rawServices plainTopic note = [rawSubscription] := by
  have listed : listSubscriptions rawServices.topics plainTopic.arn = [rawSubscription] := by
    simp [listSubscriptions, rawServices, rawSubscription, plainTopic]
  have unfiltered : rawSubscription.attributes["FilterPolicy"]? = none := by decide
  have passes : passesFilter rawSubscription note = true := by
    unfold passesFilter
    rw [unfiltered]
  rw [matching, listed, due, List.filter_singleton, passes]
  rfl

/-- **A message that is lost**: the topic takes a control character, its queue does not, and the publish
succeeds. -/
theorem message_refused : ∃ history result after queue,
    ServiceRun history rawServices.queues ∧
    Publishes (fun _ => True) (rawRequest "\x01") rawCall rawServices (.ok result) after ∧
      (∀ note, matching rawServices plainTopic note = [rawSubscription]) ∧
      getQueue rawServices.queues rawSubscription.endpoint = .ok queue ∧
      copiesFrom rawServices.queues.messages.next after.queues = [] := by
  obtain ⟨result, after, publishes, none⟩ := @finishes_ok _ _ rawCall 2
    (begun (beginPublish rawServices.topics (rawRequest "\x01") rawCall)) rawServices 0 (by decide +kernel)
  obtain ⟨queue, found, _, _⟩ := @queue_found _ _ rawServices.queues rawSubscription.endpoint 1
    (by decide)
  exact ⟨_, result, after, queue, raw_served, publishes, matching_raw, found, List.length_eq_zero_iff.mp none⟩

end Sample

end CloudTwin.Sns
