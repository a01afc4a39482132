/-
**The order of a FIFO topic under concurrent publishes.**

A publish draws its sequence number in one call and sends to the queues in later ones, and another
publish can overtake it in between.

* `Numbered` — the topic, the group and the sequence number that a task carries.
* `Owes` — the queues that a task may still send to.
* `InTurn` — a send to a queue overtakes no message of its group with a smaller number.
* `sequence_order` — in a run whose sends are in turn, the queues have the order of the numbers.
* `sequence_overtaken` — two publishes, and a queue that has the second one's message first.
-/

import CloudTwin.Sns.FanOut
import CloudTwin.Sqs.Configuration

namespace CloudTwin.Sns

open Lib Lib.Text Sqs

set_option linter.unusedSectionVars false

section External

variable [External] [SnsFilter]

/-! ### What a send leaves -/

/-- The row of the queue that a name, URL or ARN stands for. -/
def queueIdOf (store : Store) (target : String) : Option Nat :=
  (getQueue store target).toOption.map SqsQueue.id

theorem queueIdOf_raiseSeq (store : Store) (id : Nat) (target : String) :
    queueIdOf (raiseSeq store id) target = queueIdOf store target := by
  rw [queueIdOf, getQueue_raiseSeq]
  rfl

/-- **What a send leaves**: the queues are the same, and a message takes the next row. -/
structure Kept (before after : Store) : Prop where
  queues : ∀ target, queueIdOf after target = queueIdOf before target
  next : before.messages.next ≤ after.messages.next

theorem Kept.refl (store : Store) : Kept store store :=
  ⟨fun _ => rfl, le_refl _⟩

theorem Kept.trans {before middle after : Store} (first : Kept before middle)
    (second : Kept middle after) : Kept before after :=
  ⟨fun target => (second.queues target).trans (first.queues target),
    le_trans first.next second.next⟩

theorem sendWith_kept {store after : Store} {target : String} {message : String × MsgAttrs}
    {groupId dedupId : Option String} {call : PublishCall} {sent : Sent}
    (done : sendWith store target message groupId dedupId call = .ok (sent, after)) :
    Kept store after ∧ ∀ row, sent.row = some row →
      row = store.messages.next ∧ after.messages.next = row + 1 := by
  obtain ⟨queue, _, done⟩ := Lib.bind_ok done
  cases sendTx_step done with
  | standard _ _ =>
    refine ⟨⟨fun _ => rfl, Nat.le_succ _⟩, fun row same => ?_⟩
    cases same
    exact ⟨rfl, rfl⟩
  | duplicate _ _ _ => exact ⟨Kept.refl store, nofun⟩
  | fifo _ _ _ _ _ _ =>
    refine ⟨⟨fun target => ?_, Nat.le_succ _⟩, fun row same => ?_⟩
    · exact queueIdOf_raiseSeq (refresh store queue call.now) queue.id target
    · cases same
      exact ⟨rfl, rfl⟩

/-! ### Sequence numbers -/

/-- The last number that was drawn for the topic. -/
def seqOf (store : SnsStore) (arn : String) : Nat :=
  ((findTopic store arn).map TopicRow.fifoSeq).getD 0

theorem sequenceText_injective : Function.Injective sequenceText := fun first second same => by
  have numbers := decimal_injective 20 same
  omega

theorem numberText_ok {seq : Nat} {text : String} (done : numberText seq = .ok text) :
    text = sequenceText seq := by
  unfold numberText at done
  split at done
  · cases done
    rfl
  · cases done

theorem findTopic_raiseTopic (store : SnsStore) (arn other : String) :
    findTopic (raiseTopic store arn) other = (findTopic store other).map fun topic =>
      if topic.arn = arn then { topic with fifoSeq := topic.fifoSeq + 1 } else topic := by
  unfold findTopic raiseTopic
  rw [List.find?_map]
  have same : ((fun topic : TopicRow => topic.arn == other) ∘ fun topic =>
      if topic.arn = arn then { topic with fifoSeq := topic.fifoSeq + 1 } else topic) =
      fun topic => topic.arn == other := by
    funext topic
    simp only [Function.comp]
    split
    · rfl
    · rfl
  rw [same]

theorem nextSequence_ok {store after : SnsStore} {arn number : String}
    (done : nextSequence store arn = .ok (number, after)) :
    number = sequenceText (seqOf after arn) ∧ seqOf store arn < seqOf after arn ∧
      ∀ other, seqOf store other ≤ seqOf after other := by
  obtain ⟨raised, found, done⟩ := Lib.bind_ok done
  obtain ⟨text, shown, done⟩ := Lib.bind_ok done
  cases done
  have there := okOr_ok.mp found
  have here := there
  rw [findTopic_raiseTopic] at there
  obtain ⟨topic, old, rfl⟩ := Option.map_eq_some_iff.mp there
  have own : topic.arn = arn := by
    unfold findTopic at old
    have found := List.find?_some old
    exact beq_iff_eq.mp found
  rw [if_pos own] at here shown
  have seq : seqOf (raiseTopic store arn) arn = topic.fifoSeq + 1 := by
    rw [seqOf, here]
    rfl
  refine ⟨?_, ?_, fun other => ?_⟩
  · rw [seq]
    exact numberText_ok shown
  · rw [seq, seqOf, old]
    exact Nat.lt_succ_self _
  · rw [seqOf, seqOf, findTopic_raiseTopic]
    cases findTopic store other with
    | none => exact le_refl _
    | some topic =>
      simp only [Option.map_some, Option.getD_some]
      split
      · exact Nat.le_succ _
      · exact le_refl _

/-- The message that a task carries. -/
def PublishTask.note : PublishTask → Option Notification
  | .begin _ => none
  | .nextSequence note => some note
  | .listSubscriptions note => some note
  | .deliver note _ _ => some note
  | .redrive note _ _ _ => some note

/-- **The topic, the group and the sequence number that a task carries.** -/
def Numbered (task : PublishTask) (arn group : String) (number : Nat) : Prop :=
  ∃ note, task.note = some note ∧ note.topicArn = arn ∧ note.groupId = some group ∧
    note.sequenceNumber = some (sequenceText number)

/-- Where a delivery goes. -/
def SubscriptionRow.targets (subscription : SubscriptionRow) : List String :=
  subscription.endpoint :: subscription.dlq.toList

/-- Where a task may still send to, once it has the subscriptions. -/
def PublishTask.targets : PublishTask → List String
  | .deliver _ subscription rest => (subscription :: rest).flatMap SubscriptionRow.targets
  | .redrive _ _ dlq rest => dlq :: rest.flatMap SubscriptionRow.targets
  | _ => []

/-- **The task may still send to the queue.** -/
def Owes (store : Store) (task : PublishTask) (queue : Nat) : Prop :=
  (∃ note, task = .listSubscriptions note) ∨ ∃ target ∈ task.targets, queueIdOf store target = some queue

theorem nextDelivery_continues {note : Notification} {subscriptions : List SubscriptionRow}
    {next : PublishTask} (goes : nextDelivery note subscriptions = .continues next) :
    next.note = some note ∧ (∀ note', next ≠ .listSubscriptions note') ∧
      ∀ target ∈ next.targets, target ∈ subscriptions.flatMap SubscriptionRow.targets := by
  induction subscriptions with
  | nil => cases goes
  | cons subscription rest ih =>
    unfold nextDelivery at goes
    split at goes
    · cases goes
      exact ⟨rfl, nofun, fun target member => member⟩
    · obtain ⟨same, listed, targets⟩ := ih goes
      exact ⟨same, listed, fun target member => by
        rw [List.flatMap_cons]
        exact List.mem_append_right _ (targets target member)⟩

theorem nextDelivery_ends {note : Notification} {subscriptions : List SubscriptionRow}
    {result : SnsResult PublishResult} (ends : nextDelivery note subscriptions = .ends result) :
    result = .ok note.result := by
  induction subscriptions with
  | nil =>
    cases ends
    rfl
  | cons subscription rest ih =>
    unfold nextDelivery at ends
    split at ends
    · cases ends
    · exact ih ends

theorem beginPublish_continues {store : SnsStore} {request : TopicRequest} {call : PublishCall}
    {next : PublishTask} (done : beginPublish store request call = .ok (.continues next)) :
    ∃ note, next.note = some note ∧ note.sequenceNumber = none := by
  obtain ⟨_, _, done⟩ := Lib.bind_ok done
  obtain ⟨_, _, done⟩ := Lib.bind_ok done
  split at done
  · split at done
    · cases done
    · cases done
  · split at done
    · cases done
    · obtain ⟨topic, _, done⟩ := Lib.bind_ok done
      obtain ⟨note, prepared, done⟩ := Lib.bind_ok done
      have unnumbered : note.sequenceNumber = none := by
        obtain ⟨_, _, prepared⟩ := Lib.bind_ok prepared
        cases prepared
        rfl
      cases done
      refine ⟨note, ?_, unnumbered⟩
      split
      · rfl
      · rfl

/-! ### What a call does -/

/-- A send that was tried leaves the topics and keeps the queues. -/
theorem sent_kept {services after : Services} {note : Notification} {subscription : SubscriptionRow}
    {target : String} {call : PublishCall}
    (done : sent services (deliverySend services note subscription target call) = some after) :
    after.topics = services.topics ∧ Kept services.queues after.queues := by
  unfold sent at done
  split at done
  · rename_i sends
    cases done
    exact ⟨rfl, (sendWith_kept sends).1⟩
  · cases done

/-- **What a call leaves**: numbers only go up, and queues stay. -/
theorem run_kept (call : PublishCall) (task : PublishTask) (services : Services) :
    (∀ arn, seqOf services.topics arn ≤ seqOf (task.run call services).2.topics arn) ∧
      Kept services.queues (task.run call services).2.queues := by
  cases task with
  | begin request => exact ⟨fun _ => le_refl _, Kept.refl _⟩
  | nextSequence note =>
    simp only [PublishTask.run]
    cases drawn : nextSequence services.topics note.topicArn with
    | ok result => exact ⟨(nextSequence_ok drawn).2.2, Kept.refl _⟩
    | error error => exact ⟨fun _ => le_refl _, Kept.refl _⟩
  | listSubscriptions note => exact ⟨fun _ => le_refl _, Kept.refl _⟩
  | deliver note subscription rest =>
    simp only [PublishTask.run]
    cases done : sent services (deliverySend services note subscription subscription.endpoint call)
      with
    | none => exact ⟨fun _ => le_refl _, Kept.refl _⟩
    | some after =>
      obtain ⟨topics, kept⟩ := sent_kept done
      exact ⟨fun _ => by rw [show (afterDelivery services note subscription rest (some after)).2 =
        after from rfl, topics], kept⟩
  | redrive note subscription dlq rest =>
    simp only [PublishTask.run]
    cases done : sent services (deliverySend services note subscription dlq call) with
    | none => exact ⟨fun _ => le_refl _, Kept.refl _⟩
    | some after =>
      obtain ⟨topics, kept⟩ := sent_kept done
      exact ⟨fun _ => by rw [Option.getD_some, topics], kept⟩

/-- **Where a call leads**: to a task with a new number, or to one that carries the same message and
owes less. -/
theorem run_leads {call : PublishCall} {task next : PublishTask} {services : Services}
    (goes : (task.run call services).1 = .continues next) :
    (∃ note, next.note = some note ∧ note.sequenceNumber = none) ∨
    (∃ note, next = .listSubscriptions note ∧
      note.sequenceNumber =
        some (sequenceText (seqOf (task.run call services).2.topics note.topicArn)) ∧
      seqOf services.topics note.topicArn <
        seqOf (task.run call services).2.topics note.topicArn) ∨
    (next.note = task.note ∧ task.note ≠ none ∧
      ∀ store queue, Owes store next queue → Owes store task queue) := by
  have fewer : ∀ {note : Notification} {subscriptions : List SubscriptionRow},
      nextDelivery note subscriptions = .continues next → ∀ store queue, Owes store next queue →
      ∃ target ∈ subscriptions.flatMap SubscriptionRow.targets,
        queueIdOf store target = some queue := by
    intro note subscriptions delivers store queue owes
    obtain ⟨_, listed, targets⟩ := nextDelivery_continues delivers
    rcases owes with ⟨other, same⟩ | ⟨target, member, found⟩
    · exact absurd same (listed other)
    · exact ⟨target, targets target member, found⟩
  cases task with
  | begin request =>
    have first : begun (beginPublish services.topics request call) = .continues next := goes
    cases begin : beginPublish services.topics request call with
    | ok progress =>
      rw [begin] at first
      have same : progress = .continues next := first
      rw [same] at begin
      exact Or.inl (beginPublish_continues begin)
    | error error =>
      rw [begin] at first
      cases first
  | nextSequence note =>
    simp only [PublishTask.run] at goes ⊢
    cases drawn : nextSequence services.topics note.topicArn with
    | ok result =>
      rw [drawn] at goes
      cases goes
      obtain ⟨text, later, _⟩ := nextSequence_ok drawn
      exact Or.inr (Or.inl ⟨_, rfl, congrArg some text, later⟩)
    | error error =>
      rw [drawn] at goes
      cases goes
  | listSubscriptions note =>
    refine Or.inr (Or.inr ⟨(nextDelivery_continues goes).1, nofun, fun store queue _ => ?_⟩)
    exact Or.inl ⟨note, rfl⟩
  | deliver note subscription rest =>
    simp only [PublishTask.run] at goes
    refine Or.inr (Or.inr ?_)
    have later : nextDelivery note rest = .continues next → next.note = some note ∧
        ∀ store queue, Owes store next queue → Owes store (.deliver note subscription rest) queue := by
      intro delivers
      refine ⟨(nextDelivery_continues delivers).1, fun store queue owes => ?_⟩
      obtain ⟨target, member, found⟩ := fewer delivers store queue owes
      refine Or.inr ⟨target, ?_, found⟩
      rw [PublishTask.targets, List.flatMap_cons]
      exact List.mem_append_right _ member
    cases done : sent services (deliverySend services note subscription subscription.endpoint call)
      with
    | some after =>
      rw [done] at goes
      exact ⟨(later goes).1, nofun, (later goes).2⟩
    | none =>
      rw [done] at goes
      cases names : subscription.dlq with
      | none =>
        simp only [afterDelivery, names, Option.elim_none] at goes
        exact ⟨(later goes).1, nofun, (later goes).2⟩
      | some dlq =>
        simp only [afterDelivery, names, Option.elim_some] at goes
        cases goes
        refine ⟨rfl, nofun, fun store queue owes => ?_⟩
        rcases owes with ⟨_, same⟩ | ⟨target, member, found⟩
        · cases same
        · refine Or.inr ⟨target, ?_, found⟩
          rw [PublishTask.targets, List.flatMap_cons]
          rcases List.mem_cons.mp member with rfl | other
          · refine List.mem_append_left _ (List.mem_cons_of_mem _ ?_)
            rw [names]
            exact List.mem_singleton_self _
          · exact List.mem_append_right _ other
  | redrive note subscription dlq rest =>
    refine Or.inr (Or.inr ⟨(nextDelivery_continues goes).1, nofun, fun store queue owes => ?_⟩)
    obtain ⟨target, member, found⟩ := fewer goes store queue owes
    exact Or.inr ⟨target, List.mem_cons_of_mem _ member, found⟩

/-- A publish returns the number of the message that it carries. -/
theorem run_ends {call : PublishCall} {task : PublishTask} {services : Services}
    {note : Notification} {result : PublishResult} (carries : task.note = some note)
    (ends : (task.run call services).1 = .ends (.ok result)) : result = note.result := by
  have delivered : ∀ {subscriptions : List SubscriptionRow},
      nextDelivery note subscriptions = .ends (.ok result) → result = note.result :=
    fun ends => Except.ok.inj (nextDelivery_ends ends)
  cases task with
  | begin request => cases carries
  | nextSequence other =>
    simp only [PublishTask.run] at ends
    cases drawn : nextSequence services.topics other.topicArn with
    | ok result =>
      rw [drawn] at ends
      cases ends
    | error error =>
      rw [drawn] at ends
      cases ends
  | listSubscriptions other =>
    cases carries
    exact delivered ends
  | deliver other subscription rest =>
    cases carries
    simp only [PublishTask.run] at ends
    cases done : sent services (deliverySend services note subscription subscription.endpoint call)
      with
    | some after =>
      rw [done] at ends
      exact delivered ends
    | none =>
      rw [done] at ends
      cases names : subscription.dlq with
      | none =>
        simp only [afterDelivery, names, Option.elim_none] at ends
        exact delivered ends
      | some dlq =>
        simp only [afterDelivery, names, Option.elim_some] at ends
        cases ends
  | redrive other subscription dlq rest =>
    cases carries
    exact delivered ends

/-! ### Sends in turn -/

/-- The send of a task: its message, its subscription, and where it goes. -/
def PublishTask.send : PublishTask → Option (Notification × SubscriptionRow × String)
  | .deliver note subscription _ => some (note, subscription, subscription.endpoint)
  | .redrive note subscription dlq _ => some (note, subscription, dlq)
  | _ => none

/-- A send is a delivery, or its second try. -/
theorem PublishTask.send_some {task : PublishTask} {note : Notification}
    {subscription : SubscriptionRow} {target : String}
    (sends : task.send = some (note, subscription, target)) :
    ∃ rest, (task = .deliver note subscription rest ∧ target = subscription.endpoint) ∨
      task = .redrive note subscription target rest := by
  cases task with
  | deliver note' subscription' rest =>
    cases sends
    exact ⟨rest, Or.inl ⟨rfl, rfl⟩⟩
  | redrive note' subscription' dlq rest =>
    cases sends
    exact ⟨rest, Or.inr rfl⟩
  | begin request => cases sends
  | nextSequence note' => cases sends
  | listSubscriptions note' => cases sends

def publishTaskOf (event : PublishEvent) : PublishTask :=
  taskOf PublishTask.begin event

/-- **The step stores a message** of the topic and the group in a row of the queue. -/
def Stores (event : PublishEvent) (arn group : String) (number queue row : Nat) : Prop :=
  Numbered (publishTaskOf event) arn group number ∧
  ∃ note subscription target sent after,
    (publishTaskOf event).send = some (note, subscription, target) ∧
    queueIdOf event.before.shared.queues target = some queue ∧
    deliverySend event.before.shared note subscription target event.input.2.call =
      .ok (sent, after) ∧
    sent.row = some row

/-- **The send overtakes no message** of its topic and group that has a smaller number and may still
be sent to the queue. -/
def InTurn (event : PublishEvent) : Prop :=
  ∀ note subscription target arn group number queue,
    (publishTaskOf event).send = some (note, subscription, target) →
    Numbered (publishTaskOf event) arn group number →
    queueIdOf event.before.shared.queues target = some queue →
    ∀ other task smaller, other ≠ event.input.1 → event.before.client other = some task →
      Numbered task arn group smaller → smaller < number →
      ¬ Owes event.before.shared.queues task queue

theorem Numbered.unique {task : PublishTask} {arn group : String} {first second : Nat}
    (one : Numbered task arn group first) (other : Numbered task arn group second) :
    first = second := by
  obtain ⟨note, carried, _, _, number⟩ := one
  obtain ⟨note', carried', _, _, number'⟩ := other
  rw [carried] at carried'
  cases carried'
  rw [number] at number'
  exact sequenceText_injective (Option.some.inj number')

/-- A number that a task carries has been drawn. -/
def Drawn (services : Services) (task : PublishTask) : Prop :=
  ∀ arn group number, Numbered task arn group number → number ≤ seqOf services.topics arn

theorem drawn_leads {call : PublishCall} {task next : PublishTask} {services : Services}
    (drawn : Drawn services task) (goes : (task.run call services).1 = .continues next) :
    Drawn (task.run call services).2 next := by
  rintro arn group number ⟨note, carried, rfl, grouped, numbered⟩
  rcases run_leads goes with ⟨other, same, none⟩ | ⟨other, rfl, text, _⟩ | ⟨same, _, _⟩
  · rw [carried] at same
    cases same
    rw [numbered] at none
    cases none
  · cases carried
    rw [numbered] at text
    rw [sequenceText_injective (Option.some.inj text)]
  · exact le_trans (drawn _ _ _ ⟨note, same ▸ carried, rfl, grouped, numbered⟩)
      ((run_kept call task services).1 _)

theorem drawn_run {services : Services} {history : List PublishEvent} {final : PublishSystem}
    (run : Run publishStep (PublishSystem.idle services) history final) :
    ∀ event ∈ history, Drawn event.before.shared (publishTaskOf event) := by
  have steps : Run (System.step (advance PublishTask.begin PublishTask.run))
    (PublishSystem.idle services) history final := run
  have whole := tasks_invariant (fun _ => True) Drawn steps ⟨trivial, fun _ _ => nofun⟩ ?_ ?_
  · exact fun event member => (whole.2 event member).2.1
  · rintro event _ _ arn group number ⟨note, carried, _⟩
    cases carried
  · intro event _ taken _ drawn
    have shared := (task_taken taken).1
    refine ⟨trivial, fun next goes => ?_, fun client other _ _ before => ?_⟩
    · rw [shared]
      exact drawn_leads drawn goes
    · rw [shared]
      exact fun arn group number numbered =>
        le_trans (before arn group number numbered) ((run_kept _ _ _).1 arn)

/-- **What is known of a later state**: a task with a number that was drawn by then was under way
then, and owes no more than it did. -/
structure Since (start system : PublishSystem) (arn : String) : Prop where
  queues : Kept start.shared.queues system.shared.queues
  seq : seqOf start.shared.topics arn ≤ seqOf system.shared.topics arn
  tasks : ∀ client task, system.client client = some task → ∀ group number,
    Numbered task arn group number → number ≤ seqOf start.shared.topics arn →
    ∃ before, start.client client = some before ∧ Numbered before arn group number ∧
      ∀ queue, Owes system.shared.queues task queue → Owes start.shared.queues before queue

theorem owes_kept {before after : Store} (kept : Kept before after) {task : PublishTask} {queue : Nat}
    (owes : Owes after task queue) : Owes before task queue := by
  rcases owes with listing | ⟨target, member, found⟩
  · exact Or.inl listing
  · exact Or.inr ⟨target, member, (kept.queues target).symm.trans found⟩

theorem since_run {start stop : PublishSystem} {history : List PublishEvent}
    (run : Run publishStep start history stop) (arn : String) : Since start stop arn := by
  have begins : Since start start arn := ⟨Kept.refl _, le_refl _, fun client task held _ _ numbered _ =>
    ⟨task, held, numbered, fun _ owes => owes⟩⟩
  refine @Run.invariant _ _ _ _ _ _ _ (fun system => Since start system arn) run begins ?_
  intro event taken since
  have shared := (task_taken taken).1
  obtain ⟨numbers, kept⟩ := run_kept event.input.2.call (publishTaskOf event) event.before.shared
  rw [← show event.after.shared = ((publishTaskOf event).run event.input.2.call
    event.before.shared).2 from shared] at numbers kept
  refine ⟨since.queues.trans kept, le_trans since.seq (numbers arn), ?_⟩
  intro client task held group number numbered past
  rcases task_origin taken held with ⟨_, before⟩ | ⟨rfl, goes⟩
  · obtain ⟨old, held, same, owes⟩ := since.tasks client task before group number numbered past
    exact ⟨old, held, same, fun queue still => owes queue (owes_kept kept still)⟩
  · obtain ⟨note, carried, own, grouped, text⟩ := numbered
    rcases run_leads goes with ⟨other, same, none⟩ | ⟨other, rfl, drawn, later⟩ | ⟨same, carries, less⟩
    · rw [carried] at same
      cases same
      rw [text] at none
      cases none
    · -- a number that was drawn since is larger
      cases carried
      rw [text] at drawn
      have equal := sequenceText_injective (Option.some.inj drawn)
      rw [own] at equal later
      have := since.seq
      have bound : seqOf event.before.shared.topics arn < number := by
        rw [equal]
        exact later
      omega
    · have running : event.before.client event.input.1 = some (publishTaskOf event) := by
        unfold publishTaskOf taskOf
        cases holds : event.before.client event.input.1 with
        | none =>
          refine absurd ?_ carries
          unfold taskOf
          rw [holds]
          rfl
        | some task => rfl
      obtain ⟨old, held, numbered, owes⟩ := since.tasks _ _ running group number
        ⟨note, same ▸ carried, own, grouped, text⟩ past
      exact ⟨old, held, numbered, fun queue still =>
        owes queue (less _ queue (owes_kept kept still))⟩

/-- A send that stores a message takes the next row. -/
theorem stores_row {event : PublishEvent} (taken : event.Taken publishStep) {arn group : String}
    {number queue row : Nat} (stores : Stores event arn group number queue row) :
    row = event.before.shared.queues.messages.next ∧
      event.after.shared.queues.messages.next = row + 1 := by
  obtain ⟨_, note, subscription, target, sent', after, sends, _, done, stored⟩ := stores
  have shared := (task_taken taken).1
  obtain ⟨_, rows⟩ := sendWith_kept done
  obtain ⟨here, next⟩ := rows row stored
  have tried : sent event.before.shared (deliverySend event.before.shared note subscription target
      event.input.2.call) = some { event.before.shared with queues := after } := by
    rw [done]
    rfl
  refine ⟨here, ?_⟩
  rw [shared]
  change (PublishTask.run event.input.2.call (publishTaskOf event)
    event.before.shared).2.queues.messages.next = row + 1
  obtain ⟨_, ⟨running, rfl⟩ | running⟩ := PublishTask.send_some sends
  · rw [running, PublishTask.run, tried]
    exact next
  · rw [running, PublishTask.run, tried]
    exact next

/-- **Two messages of a queue**: the earlier one has the smaller row, and no larger number. -/
theorem stored_in_order {services : Services} {past between rest : List PublishEvent}
    {first second : PublishEvent} {final : PublishSystem}
    (run : Run publishStep (PublishSystem.idle services)
      (past ++ first :: (between ++ second :: rest)) final)
    (inTurn : InTurn first) {arn group : String} {number number' queue row row' : Nat}
    (stores : Stores first arn group number queue row)
    (storesToo : Stores second arn group number' queue row') : row < row' ∧ number ≤ number' := by
  have drawn := drawn_run run first (by simp)
  obtain ⟨_, takenFirst, runAfter⟩ := run.around
  obtain ⟨runBetween, takenSecond, _⟩ := runAfter.around
  obtain ⟨here, next⟩ := stores_row takenFirst stores
  obtain ⟨later, _⟩ := stores_row takenSecond storesToo
  refine ⟨?_, ?_⟩
  · have kept := (since_run runBetween arn).queues.next
    omega
  by_contra less
  have smaller : number' < number := not_le.mp less
  obtain ⟨numbered, note, subscription, target, _, _, sends, goes, _, _⟩ := stores
  obtain ⟨numberedToo, note', subscription', target', _, _, sendsToo, goesToo, _, _⟩ := storesToo
  have since := since_run (Run.cons takenFirst runBetween) arn
  have bound := drawn arn group number numbered
  have running : second.before.client second.input.1 = some (publishTaskOf second) := by
    unfold publishTaskOf taskOf
    cases holds : second.before.client second.input.1 with
    | none =>
      unfold publishTaskOf taskOf at sendsToo
      rw [holds] at sendsToo
      cases sendsToo
    | some task => rfl
  have owes : Owes second.before.shared.queues (publishTaskOf second) queue := by
    refine Or.inr ⟨target', ?_, goesToo⟩
    obtain ⟨_, ⟨holds, rfl⟩ | holds⟩ := PublishTask.send_some sendsToo
    · rw [holds]
      simp [PublishTask.targets, SubscriptionRow.targets]
    · rw [holds]
      simp [PublishTask.targets]
  obtain ⟨task, held, same, owed⟩ :=
    since.tasks _ _ running group number' numberedToo (le_trans smaller.le bound)
  by_cases own : second.input.1 = first.input.1
  · -- one client has one number at a time
    have equal : task = publishTaskOf first := by
      unfold publishTaskOf taskOf
      rw [← own, held]
      rfl
    rw [equal] at same
    have := same.unique numbered
    omega
  · exact inTurn note subscription target arn group number queue sends numbered goes _ task number' own
      held same smaller (owed queue owes)

/-- Two steps of a history. -/
theorem mem_cases {α : Type} {history : List α} {first second : α} (one : first ∈ history)
    (other : second ∈ history) :
    first = second ∨ (∃ past between rest, history = past ++ first :: (between ++ second :: rest)) ∨
      ∃ past between rest, history = past ++ second :: (between ++ first :: rest) := by
  obtain ⟨past, rest, rfl⟩ := List.append_of_mem one
  rcases List.mem_append.mp other with before | after
  · obtain ⟨start, between, rfl⟩ := List.append_of_mem before
    exact Or.inr (Or.inr ⟨start, between, rest, by simp⟩)
  · rcases List.mem_cons.mp after with same | later
    · exact Or.inl same.symm
    · obtain ⟨between, stop, rfl⟩ := List.append_of_mem later
      exact Or.inr (Or.inl ⟨past, between, stop, rfl⟩)

/-- **The queues of a FIFO topic have the order of the sequence numbers.** In a run of publishes whose
sends are in turn, the messages of a group that the topic has put into a queue are there in the order
of the numbers that the publishes return, so any two queues agree on the order. -/
theorem sequence_order {services : Services} {history : List PublishEvent} {final : PublishSystem}
    (run : Run publishStep (PublishSystem.idle services) history final)
    (inTurn : ∀ event ∈ history, InTurn event) (arn group : String) :
    (∀ event ∈ history, ∀ note, (publishTaskOf event).note = some note →
      ∀ result, event.output = some (.ok result) → result.sequenceNumber = note.sequenceNumber) ∧
    (∀ first ∈ history, ∀ second ∈ history, ∀ queue number number' row row',
      Stores first arn group number queue row → Stores second arn group number' queue row' →
      row < row' → number ≤ number') ∧
    ∀ first ∈ history, ∀ second ∈ history, ∀ first' ∈ history, ∀ second' ∈ history,
      ∀ queue queue' number number' row row' other other', number ≠ number' →
      Stores first arn group number queue row → Stores second arn group number' queue row' →
      Stores first' arn group number queue' other → Stores second' arn group number' queue' other' →
      row < row' → other < other' := by
  have order : ∀ first ∈ history, ∀ second ∈ history, ∀ queue number number' row row',
      Stores first arn group number queue row → Stores second arn group number' queue row' →
      row < row' → number ≤ number' := by
    intro first memberFirst second memberSecond queue number number' row row' stores storesToo less
    rcases mem_cases memberFirst memberSecond with rfl | ⟨past, between, rest, rfl⟩ |
      ⟨past, between, rest, rfl⟩
    · exact (stores.1.unique storesToo.1).le
    · exact (stored_in_order run (inTurn first memberFirst) stores storesToo).2
    · have := (stored_in_order run (inTurn second memberSecond) storesToo stores).1
      omega
  refine ⟨?_, order, ?_⟩
  · intro event member note carries result answered
    obtain ⟨past, rest, rfl⟩ := List.append_of_mem member
    have ran := (task_taken run.around.2.1).2
    split at ran
    · rw [ran.1] at answered
      cases answered
    · rename_i ends
      rw [ran.1] at answered
      cases answered
      exact congrArg PublishResult.sequenceNumber (run_ends carries ends)
  · intro first memberFirst second memberSecond first' memberFirst' second' memberSecond' queue queue'
      number number' row row' other other' differ stores storesToo stores' storesToo' less
    have below : number < number' :=
      lt_of_le_of_ne (order first memberFirst second memberSecond queue number number' row row' stores
        storesToo less) differ
    rcases mem_cases memberFirst' memberSecond' with rfl | ⟨past, between, rest, rfl⟩ |
      ⟨past, between, rest, rfl⟩
    · exact absurd (stores'.1.unique storesToo'.1) differ
    · exact (stored_in_order run (inTurn first' memberFirst') stores' storesToo').1
    · have := (stored_in_order run (inTurn second' memberSecond') storesToo' stores').2
      omega

/-! ### One client alone -/

/-- In a run of one client, all others are idle. -/
theorem others_idle {services : Services} {history : List PublishEvent} {final : PublishSystem}
    (run : Run publishStep (PublishSystem.idle services) history final) {client : Nat}
    (own : ∀ event ∈ history, event.input.1 = client) :
    ∀ other, other ≠ client → final.client other = none := by
  refine @Run.invariant_along _ _ _ _ _ _ _
    (fun system : PublishSystem => ∀ other, other ≠ client → system.client other = none)
    run (fun _ _ => rfl) fun earlier there taken before other away => ?_
  have same := own earlier there
  exact ((System.taken_advance taken).2 other (same ▸ away)).trans (before other away)

/-- **The publishes of one client alone are in turn.** -/
theorem inTurn_alone {services : Services} {history : List PublishEvent} {final : PublishSystem}
    (run : Run publishStep (PublishSystem.idle services) history final) {client : Nat}
    (own : ∀ event ∈ history, event.input.1 = client) : ∀ event ∈ history, InTurn event := by
  intro event member note subscription target arn group number queue _ _ _ other task smaller away held
  obtain ⟨past, rest, rfl⟩ := List.append_of_mem member
  have idle := others_idle run.around.1 fun earlier there => own earlier (List.mem_append_left _ there)
  rw [idle other (own event member ▸ away)] at held
  cases held

/-- When the only client has come to its end, all are idle. -/
theorem idle_again {services : Services} {history : List PublishEvent} {final : PublishSystem}
    (run : Run publishStep (PublishSystem.idle services) history final) {client : Nat}
    (own : ∀ event ∈ history, event.input.1 = client) (ended : (final.client client).isNone = true) :
    final = PublishSystem.idle final.shared := by
  have none_running : final.client = fun _ => none := by
    funext other
    by_cases same : other = client
    · rw [same]
      exact Option.isNone_iff_eq_none.mp ended
    · exact others_idle run own other same
  cases final with
  | mk shared clients =>
    cases none_running
    rfl

/-- The topic, the group, the number, the queue and the row of the message that a step stores. -/
def storedBy (event : PublishEvent) :
    Option ((String × Option String × Option String) × Nat × Nat) := do
  let (note, subscription, target) ← (publishTaskOf event).send
  let queue ← queueIdOf event.before.shared.queues target
  let (sent, _) ←
    (deliverySend event.before.shared note subscription target event.input.2.call).toOption
  let row ← sent.row
  return ((note.topicArn, note.groupId, note.sequenceNumber), queue, row)

theorem stores_of_storedBy {event : PublishEvent} {arn group : String} {number queue row : Nat}
    (found : storedBy event = some ((arn, some group, some (sequenceText number)), queue, row)) :
    Stores event arn group number queue row := by
  obtain ⟨⟨note, subscription, target⟩, sends, found⟩ := Option.bind_eq_some_iff.mp found
  obtain ⟨id, goes, found⟩ := Option.bind_eq_some_iff.mp found
  obtain ⟨⟨sent, after⟩, done, found⟩ := Option.bind_eq_some_iff.mp found
  obtain ⟨stored, rows, found⟩ := Option.bind_eq_some_iff.mp found
  obtain ⟨message, place⟩ := Prod.mk.inj (Option.some.inj found)
  obtain ⟨topic, message⟩ := Prod.mk.inj message
  obtain ⟨grouped, numbered⟩ := Prod.mk.inj message
  obtain ⟨rfl, rfl⟩ := Prod.mk.inj place
  have carries : (publishTaskOf event).note = some note := by
    obtain ⟨_, ⟨running, _⟩ | running⟩ := PublishTask.send_some sends
    · rw [running]
      rfl
    · rw [running]
      rfl
  refine ⟨⟨note, carries, topic, grouped, numbered⟩, note, subscription, target, sent, after, sends,
    goes, ?_, rows⟩
  cases tried : deliverySend event.before.shared note subscription target event.input.2.call with
  | ok result =>
    rw [tried] at done
    exact congrArg Except.ok (Option.some.inj done)
  | error error =>
    rw [tried] at done
    cases done

end External

/-! ### A queue that has the second message first -/

section Sample

attribute [local instance] External.sample SnsFilter.sample

def fifoAttributes : BTreeMap String :=
  (∅ : BTreeMap String).insert "FifoTopic" "true"

def fifoTopic : TopicRow where
  arn := topicArn "t.fifo"
  name := "t.fifo"
  attributes := fifoAttributes
  tags := ∅
  fifoSeq := 0

def fifoSubscription : SubscriptionRow where
  arn := topicArn "t.fifo:s"
  topicArn := topicArn "t.fifo"
  protocol := "sqs"
  endpoint := queueArn "orders.fifo"
  attributes := (∅ : BTreeMap String).insert "RawMessageDelivery" "true"

/-- A FIFO topic with a FIFO queue. -/
def fifoServices : Services where
  baseUrl := "http://localhost"
  topics := { topics := [fifoTopic], subscriptions := [fifoSubscription], drawn := 0 }
  queues := (Sqs.perform Store.empty (sampleCreateFifo 0 "0")).2

def publishTurn (client : Nat) : Nat × Turn PublishCall TopicRequest :=
  (client, {
    call := { now := 0, timestamp := "", messageId := "", dedupUuid := "" }
    request := {
      message := "m", subject := none, messageStructure := none, attributes := ∅, groupId := some "g"
      dedupId := some (if client = 0 then "a" else "b"), topicArn := some (topicArn "t.fifo")
      phoneNumber := none } })

/-- The second client draws its number after the first one, and sends before it. -/
def overtakingTurns : List (Nat × Turn PublishCall TopicRequest) :=
  List.replicate 3 (publishTurn 0) ++ List.replicate 4 (publishTurn 1) ++ [publishTurn 0]

/-- The turns of a client that publishes alone. -/
def singleTurns (client : Nat) : List (Nat × Turn PublishCall TopicRequest) :=
  List.replicate 4 (publishTurn client)

/-- The history of a list of turns. -/
def publishHistory (turns : List (Nat × Turn PublishCall TopicRequest)) : List PublishEvent :=
  Run.trace publishStep (PublishSystem.idle fifoServices) turns

theorem singleTurns_own {client : Nat} {system : PublishSystem} :
    ∀ event ∈ Run.trace publishStep system (singleTurns client), event.input.1 = client := by
  intro event member
  have input := List.mem_map_of_mem (f := Event.input) member
  rw [Run.trace_inputs] at input
  rw [List.eq_of_mem_replicate input]
  rfl

/-- Two clients publish one after the other, and the queue has their messages in that order. -/
theorem sequence_order_sample : ∃ history final first second,
    Run publishStep (PublishSystem.idle fifoServices) history final ∧
    first ∈ history ∧ first.input.1 = 0 ∧ Stores first (topicArn "t.fifo") "g" 1 1 1 ∧
    second ∈ history ∧ second.input.1 = 1 ∧ Stores second (topicArn "t.fifo") "g" 2 1 2 ∧
    ∀ first ∈ history, ∀ second ∈ history, ∀ queue number number' row row',
      Stores first (topicArn "t.fifo") "g" number queue row →
      Stores second (topicArn "t.fifo") "g" number' queue row' → row < row' → number ≤ number' := by
  have run := Run.of_trace publishStep (singleTurns 0 ++ singleTurns 1)
    (PublishSystem.idle fifoServices)
  have inTurn : ∀ event ∈ publishHistory (singleTurns 0 ++ singleTurns 1), InTurn event := by
    -- The first client has come to its end when the second one begins.
    have half := Run.of_trace publishStep (singleTurns 0) (PublishSystem.idle fifoServices)
    have idle := idle_again half singleTurns_own (by decide +kernel)
    intro event member
    rw [publishHistory, Run.trace_append] at member
    rcases List.mem_append.mp member with former | latter
    · exact inTurn_alone half singleTurns_own event former
    · rw [idle] at latter
      exact inTurn_alone (Run.of_trace publishStep (singleTurns 1) _) singleTurns_own event latter
  have both : (publishHistory (singleTurns 0 ++ singleTurns 1)).filterMap (fun event =>
      (storedBy event).map fun found => (event.input.1, found)) =
      [(0, (topicArn "t.fifo", some "g", some (sequenceText 1)), 1, 1),
        (1, (topicArn "t.fifo", some "g", some (sequenceText 2)), 1, 2)] := by decide +kernel
  have stored : ∀ client found, (client, found) ∈
      (publishHistory (singleTurns 0 ++ singleTurns 1)).filterMap (fun event =>
        (storedBy event).map fun found => (event.input.1, found)) →
      ∃ event ∈ publishHistory (singleTurns 0 ++ singleTurns 1),
        event.input.1 = client ∧ storedBy event = some found := by
    intro client found member
    obtain ⟨event, there, same⟩ := List.mem_filterMap.mp member
    obtain ⟨other, stores, same⟩ := Option.map_eq_some_iff.mp same
    cases same
    exact ⟨event, there, rfl, stores⟩
  rw [both] at stored
  obtain ⟨first, memberFirst, own, foundFirst⟩ := stored _ _ (List.mem_cons_self ..)
  obtain ⟨second, memberSecond, own', foundSecond⟩ :=
    stored _ _ (List.mem_cons_of_mem _ (List.mem_cons_self ..))
  exact ⟨_, _, first, second, run, memberFirst, own, stores_of_storedBy foundFirst, memberSecond, own',
    stores_of_storedBy foundSecond,
    (sequence_order run inTurn (topicArn "t.fifo") "g").2.1⟩

/-- **The queue has the second message in the first row.** -/
theorem sequence_overtaken : ∃ history final first second,
    Run publishStep (PublishSystem.idle fifoServices) history final ∧
      first ∈ history ∧ second ∈ history ∧
      Stores first (topicArn "t.fifo") "g" 2 1 1 ∧ Stores second (topicArn "t.fifo") "g" 1 1 2 := by
  have both : (publishHistory overtakingTurns).filterMap storedBy =
      [((topicArn "t.fifo", some "g", some (sequenceText 2)), 1, 1),
        ((topicArn "t.fifo", some "g", some (sequenceText 1)), 1, 2)] := by decide +kernel
  have stored : ∀ found ∈ (publishHistory overtakingTurns).filterMap storedBy,
      ∃ event ∈ publishHistory overtakingTurns, storedBy event = some found :=
    fun found member => List.mem_filterMap.mp member
  rw [both] at stored
  obtain ⟨first, memberFirst, foundFirst⟩ := stored _ (List.mem_cons_self ..)
  obtain ⟨second, memberSecond, foundSecond⟩ := stored _ (List.mem_cons_of_mem _ (List.mem_cons_self ..))
  exact ⟨_, _, first, second, Run.of_trace publishStep overtakingTurns (PublishSystem.idle fifoServices),
    memberFirst, memberSecond, stores_of_storedBy foundFirst, stores_of_storedBy foundSecond⟩

end Sample

end CloudTwin.Sns
