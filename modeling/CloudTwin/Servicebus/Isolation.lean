/-
**Entities that share no messages.**

Queues and subscriptions keep their messages in one table, under one text for each, and the deletion
of a topic removes the messages by the beginning of that text. So what the entities have apart is
what their texts have apart.

* `Isolated` — the entities are isolated, in a run.
* `Apart` — names whose texts are different, and none of which begins like the texts of the
  subscriptions of another topic, if the search for that beginning finds anything.
* `isolated_iff` — every run over some names is isolated exactly when the names are apart.
-/

import CloudTwin.Lib.Table
import CloudTwin.Servicebus.Messages

namespace CloudTwin.Servicebus

open Lib Lib.Text

set_option linter.unusedSectionVars false

section External

variable [External]

/-! ### Names -/

/-- The queues and subscriptions, and the topics, that a run may name. -/
structure Names where
  entity : Entity → Prop
  topic : String → Prop
  topicOf : ∀ title name, entity (.subscription title name) → topic title

/-- The call names nothing else. -/
def Names.Allow (names : Names) : Call → Prop
  | .createQueue name => names.entity (.queue name)
  | .deleteQueue name => names.entity (.queue name)
  | .createTopic name => names.topic name
  | .deleteTopic name => names.topic name
  | .createSubscription topic name => names.entity (.subscription topic name)
  | .deleteSubscription topic name => names.entity (.subscription topic name)
  | .sendMessage queue _ => names.entity (.queue queue)
  | .sendTopicMessage topic _ => names.topic topic
  | .receiveMessages entity _ => names.entity entity
  | .settle entity _ _ => names.entity entity

/-- The entity is the one that the call is about, or a subscription of the topic that it is about. -/
def Touches : Call → Entity → Prop
  | .deleteQueue name, entity => entity = .queue name
  | .deleteTopic topic, entity => ∃ name, entity = .subscription topic name
  | .deleteSubscription topic name, entity => entity = .subscription topic name
  | .sendMessage queue _, entity => entity = .queue queue
  | .sendTopicMessage topic _, entity => ∃ name, entity = .subscription topic name
  | .receiveMessages other _, entity => entity = other
  | .settle other _ _, entity => entity = other
  | _, _ => False

/-- The messages of an entity. -/
def messagesOf (store : Store) (entity : Entity) : List AsbMessage :=
  store.messages.filter fun message => message.queueName == entity.queueName

/-- The event sent a message with the body to the entity: to the queue, or to the topic of the
subscription while the subscription was there. -/
def SentTo (event : ServicebusEvent) (entity : Entity) (body : String) : Prop :=
  (∃ queue, entity = .queue queue ∧ event.input = .sendMessage queue body) ∨
    ∃ topic name, entity = .subscription topic name ∧
      event.input = .sendTopicMessage topic body ∧
      (⟨name, topic⟩ : AsbSubscription) ∈ event.before.subscriptions

/-- **Isolation**: a call leaves the messages of the entities that it is not about, and a message is
received from where it was sent. -/
structure Isolated (names : Names) (history : List ServicebusEvent) : Prop where
  frame : ∀ event ∈ history, ∀ entity, names.entity entity → ¬ Touches event.input entity →
    messagesOf event.after entity = messagesOf event.before entity
  source : ∀ past event rest entity limit message, history = past ++ event :: rest →
    event.input = .receiveMessages entity limit → Returns event message →
    ∃ sent ∈ past, SentTo sent entity message.body

/-- **The names are apart.** The name of a topic with U+0000 begins no text for SQLite, so that its
deletion purges nothing. -/
structure Apart (names : Names) : Prop where
  queues : ∀ one two, names.entity one → names.entity two → one.queueName = two.queueName →
    one = two
  topics : ∀ topic entity, names.topic topic → '\x00' ∉ topic.toList → names.entity entity →
    startsWith entity.queueName (subscriptionQueue topic "") = true →
    ∃ name, entity = .subscription topic name

/-- What the deletion of a topic purges. -/
theorem hasPrefix_subscriptionQueue {text topic : String} :
    Sqlite.hasPrefix text (subscriptionQueue topic "") = true ↔
      startsWith text (subscriptionQueue topic "") = true ∧ '\x00' ∉ topic.toList := by
  rw [Sqlite.hasPrefix_iff]
  refine and_congr_right fun _ => not_congr ?_
  have fixed : '\x00' ∉ "topic:".toList ∧ '\x00' ∉ ":sub:".toList := by decide
  simp only [subscriptionQueue, String.toList_append, List.mem_append, fixed.1, fixed.2, false_or,
    or_false]
  exact or_iff_left (by simp)

/-! ### Names that are apart are isolated -/

/-- The names of what is stored. -/
def NamesStored (names : Names) (store : Store) : Prop :=
  ∀ row ∈ store.subscriptions, names.entity (.subscription row.topic row.name)

theorem NamesStored.taken {names : Names} {event : ServicebusEvent}
    (taken : event.Taken perform) (allowed : names.Allow event.input)
    (before : NamesStored names event.before) : NamesStored names event.after := by
  have after := after_taken taken
  unfold perform at after
  have kept (same : event.after.subscriptions = event.before.subscriptions) :
      NamesStored names event.after := by
    intro row member
    rw [same] at member
    exact before row member
  cases call : event.input with
  | createQueue name =>
    rw [call] at after
    refine kept ?_
    rw [after]
    simp only [createQueue]
    split <;> rfl
  | deleteQueue name =>
    rw [call] at after
    exact kept (by rw [after]; rfl)
  | createTopic name =>
    rw [call] at after
    refine kept ?_
    rw [after]
    simp only [createTopic]
    split <;> rfl
  | deleteTopic name =>
    rw [call] at after
    intro row member
    rw [after] at member
    exact before row (List.mem_filter.mp member).1
  | createSubscription topic name =>
    rw [call] at after allowed
    intro row member
    rw [after] at member
    simp only [createSubscription, Prod.map_snd, id] at member
    split at member
    · exact before row member
    · split at member
      · exact before row member
      · rcases List.mem_append.mp member with old | new
        · exact before row old
        · rw [List.mem_singleton.mp new]
          exact allowed
  | deleteSubscription topic name =>
    rw [call] at after
    intro row member
    rw [after] at member
    exact before row (List.mem_filter.mp member).1
  | sendMessage queue body =>
    rw [call] at after
    refine kept ?_
    rw [after]
    simp only [sendMessage, Prod.map_snd, id]
    split <;> rfl
  | sendTopicMessage topic body =>
    rw [call] at after
    refine kept ?_
    rw [after]
    simp only [sendTopicMessage, Prod.map_snd, id]
    split <;> rfl
  | receiveMessages entity limit =>
    rw [call] at after
    exact kept (by rw [after]; rfl)
  | settle entity lockToken settlement =>
    rw [call] at after
    refine kept ?_
    rw [after]
    show (settle _ _ _ settlement.state).2.subscriptions = _
    cases settlement <;> rfl

theorem frame_append {store : Store} {entity : Entity} {rows : List AsbMessage} {drawn : Nat}
    (others : ∀ row ∈ rows, row.queueName ≠ entity.queueName) :
    messagesOf { store with messages := store.messages ++ rows, drawn := drawn } entity =
      messagesOf store entity := by
  have none_here : rows.filter (fun row => row.queueName == entity.queueName) = [] := by
    rw [List.filter_eq_nil_iff]
    intro row member
    simpa using others row member
  unfold messagesOf
  rw [List.filter_append, none_here, List.append_nil]

/-- **A call leaves the messages of the entities that it is not about.** -/
theorem frame_taken {names : Names} {event : ServicebusEvent} (apart : Apart names)
    (taken : event.Taken perform) (unique : Stored event.before)
    (stored : NamesStored names event.before) (allowed : names.Allow event.input)
    {entity : Entity} (named : names.entity entity) (untouched : ¬ Touches event.input entity) :
    messagesOf event.after entity = messagesOf event.before entity := by
  have after := after_taken taken
  unfold perform at after
  have different (other : Entity) (namedOther : names.entity other) (apartOther : entity ≠ other) :
      ∀ message : AsbMessage, message.queueName = entity.queueName →
        message.queueName ≠ other.queueName := fun message here there =>
    apartOther (apart.queues _ _ named namedOther (here.symm.trans there))
  cases call : event.input with
  | createQueue name =>
    rw [call] at after
    rw [after]
    simp only [createQueue]
    split <;> rfl
  | deleteQueue name =>
    rw [call] at after allowed untouched
    rw [after]
    refine filter_filter_same fun message _ here => ?_
    exact bne_iff_ne.mpr (different (.queue name) allowed untouched message (beq_iff_eq.mp here))
  | createTopic name =>
    rw [call] at after
    rw [after]
    simp only [createTopic]
    split <;> rfl
  | deleteTopic name =>
    rw [call] at after allowed untouched
    rw [after]
    refine filter_filter_same fun message _ here => ?_
    rw [Bool.not_eq_true', ← Bool.not_eq_true, beq_iff_eq.mp here]
    intro found
    obtain ⟨starts, plain⟩ := hasPrefix_subscriptionQueue.mp found
    exact untouched (apart.topics name entity allowed plain named starts)
  | createSubscription topic name =>
    rw [call] at after
    rw [after]
    simp only [createSubscription, Prod.map_snd, id]
    split
    · rfl
    · split <;> rfl
  | deleteSubscription topic name =>
    rw [call] at after allowed untouched
    rw [after]
    refine filter_filter_same fun message _ here => ?_
    exact bne_iff_ne.mpr
      (different (.subscription topic name) allowed untouched message (beq_iff_eq.mp here))
  | sendMessage queue body =>
    rw [call] at after allowed untouched
    rw [after]
    simp only [sendMessage, Prod.map_snd, id]
    split
    · rfl
    · refine frame_append fun row member same => ?_
      rw [List.mem_singleton.mp member] at same
      exact different (.queue queue) allowed untouched _ same rfl
  | sendTopicMessage topic body =>
    rw [call] at after untouched
    rw [after]
    simp only [sendTopicMessage, Prod.map_snd, id]
    split
    · rfl
    · refine frame_append fun row member same => ?_
      obtain ⟨index, inside, rfl⟩ := List.mem_iff_getElem.mp member
      obtain ⟨name, here, rowEq⟩ := getElem?_copies (List.getElem?_eq_getElem inside)
      have namedSub := stored _ (mem_subscriptionsOf.mp (List.mem_of_getElem? here))
      refine different (.subscription topic name) namedSub (fun equal => untouched ⟨name, equal⟩) _
        same ?_
      rw [rowEq]
      rfl
  | receiveMessages other limit =>
    rw [call] at after allowed untouched
    rw [after]
    refine filter_map_same (fun message _ => ?_) fun message member here => ?_
    · split <;> rfl
    · rw [if_neg]
      intro locked
      obtain ⟨selected, found, same⟩ := List.mem_map.mp locked
      obtain ⟨memberSelected, queue, _⟩ := mem_receivable found
      obtain rfl := unique.row_of_token memberSelected member same
      exact different other allowed untouched _ (beq_iff_eq.mp here) queue
  | settle other lockToken settlement =>
    rw [call] at after allowed untouched
    rw [after]
    show messagesOf (settle _ _ _ settlement.state).2 entity = _
    cases settlement.state with
    | none =>
      refine filter_filter_same fun message _ here => ?_
      have queue := different other allowed untouched message (beq_iff_eq.mp here)
      simp [beq_eq_false_iff_ne.mpr queue]
    | some target =>
      refine filter_map_same (fun message _ => ?_) fun message member here => ?_
      · split <;> rfl
      · have queue := different other allowed untouched message (beq_iff_eq.mp here)
        rw [if_neg]
        simp [beq_eq_false_iff_ne.mpr queue]

/-- **Where the messages of a run come from.** -/
theorem sent_run {names : Names} {history : List ServicebusEvent} {store : Store}
    (uuids : UuidLaws ‹External›) (run : ServicebusRun history store)
    (allowed : ∀ event ∈ history, names.Allow event.input) : NamesStored names store ∧
      ∀ message ∈ store.messages, ∃ sent ∈ history, ∃ entity, names.entity entity ∧
        SentTo sent entity message.body ∧ message.queueName = entity.queueName := by
  induction run with
  | start => exact ⟨nofun, nofun⟩
  | @next history event run taken ih =>
    obtain ⟨stored, sent⟩ := ih fun earlier member => allowed earlier (List.mem_append_left _ member)
    have allowedHere := allowed event (by simp)
    refine ⟨stored.taken taken allowedHere, fun later member => ?_⟩
    have unique := stored_run uuids run Stored.empty
    rcases origin_taken taken unique later member with ⟨old, memberOld, evolves⟩ | inserted
    · obtain ⟨sending, memberSending, entity, named, sentTo, queue⟩ := sent old memberOld
      refine ⟨sending, List.mem_append_left _ memberSending, entity, named, ?_, ?_⟩
      · rwa [evolves.same.body]
      · rwa [evolves.same.queueName]
    · rcases inserted.sent with call | ⟨topic, name, call, attached, queue⟩
      · rw [call] at allowedHere
        exact ⟨event, by simp, _, allowedHere, Or.inl ⟨_, rfl, call⟩, rfl⟩
      · exact ⟨event, by simp, _, stored _ attached, Or.inr ⟨topic, name, rfl, call, attached⟩,
          queue⟩

theorem isolated_run {names : Names} {history : List ServicebusEvent} {store : Store}
    (uuids : UuidLaws ‹External›) (apart : Apart names) (run : ServicebusRun history store)
    (allowed : ∀ event ∈ history, names.Allow event.input) : Isolated names history where
  frame event member entity named untouched := by
    obtain ⟨past, rest, rfl⟩ := List.append_of_mem member
    obtain ⟨runPast, taken, _⟩ := run.around
    have allowedPast : ∀ earlier ∈ past, names.Allow earlier.input := fun earlier memberPast =>
      allowed earlier (List.mem_append_left _ memberPast)
    exact frame_taken apart taken (stored_run uuids runPast Stored.empty)
      (sent_run uuids runPast allowedPast).1 (allowed event member) named untouched
  source past event rest entity limit message split call returns := by
    rw [split] at run
    obtain ⟨runPast, taken, _⟩ := run.around
    have allowedPast : ∀ earlier ∈ past, names.Allow earlier.input := fun earlier memberPast =>
      allowed earlier (by rw [split]; exact List.mem_append_left _ memberPast)
    have allowedHere := allowed event (by rw [split]; simp)
    rw [call] at allowedHere
    obtain ⟨other, otherLimit, callOther, queue, _, member, _⟩ := returns_taken taken returns
    rw [call] at callOther
    obtain ⟨rfl, _⟩ := Call.receiveMessages.inj callOther
    obtain ⟨sent, memberSent, origin, named, sentTo, place⟩ :=
      (sent_run uuids runPast allowedPast).2 _ member
    have same : entity = origin :=
      apart.queues _ _ allowedHere named (queue.symm.trans place)
    rw [same]
    exact ⟨sent, memberSent, sentTo⟩

/-! ### Names that are not apart -/

/-- The calls that create the entity. -/
def setup : Entity → List Call
  | .queue name => [.createQueue name]
  | .subscription topic name => [.createTopic topic, .createSubscription topic name]

/-- A call that sends a message to the entity. -/
def sending : Entity → Call
  | .queue name => .sendMessage name "m"
  | .subscription topic _ => .sendTopicMessage topic "m"

theorem setup_messages (entity : Entity) :
    (Run.final perform Store.empty (setup entity)).messages = [] := by
  cases entity with
  | queue name => rfl
  | subscription topic name =>
    simp [setup, Run.final, perform, createTopic, createSubscription, Store.empty]

theorem sending_messages (entity : Entity) : ∃ message,
    (perform (Run.final perform Store.empty (setup entity)) (sending entity)).2.messages =
      [message] ∧ message.queueName = entity.queueName := by
  cases entity with
  | queue name =>
    refine ⟨newMessage 1 (External.uuid 0) name "m", ?_, rfl⟩
    simp [setup, sending, Run.final, perform, createQueue, sendMessage, Store.empty]
  | subscription topic name =>
    refine ⟨newMessage 1 (External.uuid 0) (subscriptionQueue topic name) "m", ?_, rfl⟩
    simp [setup, sending, Run.final, perform, createTopic, createSubscription, sendTopicMessage,
      copies, subscriptionsOf, Store.empty]

theorem allow_setup {names : Names} {entity : Entity} (named : names.entity entity) :
    (∀ call ∈ setup entity, names.Allow call) ∧ names.Allow (sending entity) := by
  cases entity with
  | queue name =>
    refine ⟨fun call member => ?_, named⟩
    rw [List.mem_singleton.mp member]
    exact named
  | subscription topic name =>
    have namedTopic := names.topicOf topic name named
    refine ⟨fun call member => ?_, namedTopic⟩
    rcases List.mem_cons.mp member with rfl | last
    · exact namedTopic
    · rw [List.mem_singleton.mp last]
      exact named

/-- What isolation says of the last of some calls. -/
theorem frame_last {names : Names} (calls : List Call) (last : Call)
    (allowed : ∀ call ∈ calls, names.Allow call) (allowedLast : names.Allow last)
    (isolated : ∀ history store, ServicebusRun history store →
      (∀ event ∈ history, names.Allow event.input) → Isolated names history)
    {entity : Entity} (named : names.entity entity) (untouched : ¬ Touches last entity) :
    messagesOf (perform (Run.final perform Store.empty calls) last).2 entity =
      messagesOf (Run.final perform Store.empty calls) entity := by
  have inputs := Run.trace_inputs perform calls Store.empty
  have run : ServicebusRun (Run.trace perform Store.empty calls ++
      [Event.of perform (Run.final perform Store.empty calls) last]) _ :=
    Run.next (Run.of_trace perform calls Store.empty) (Event.of_taken perform _ last)
  refine (isolated _ _ run fun event member => ?_).frame _
    (List.mem_append_right _ (List.mem_singleton_self _)) entity named untouched
  rcases List.mem_append.mp member with old | new
  · have input : event.input ∈ (Run.trace perform Store.empty calls).map Event.input :=
      List.mem_map_of_mem old
    rw [inputs] at input
    exact allowed _ input
  · rw [List.mem_singleton.mp new]
    exact allowedLast

/-- A message is one of the entities whose text is that of its queue. -/
theorem messagesOf_single {store : Store} {message : AsbMessage} {entity : Entity}
    (only : store.messages = [message]) (here : message.queueName = entity.queueName) :
    messagesOf store entity = [message] := by
  unfold messagesOf
  rw [only, List.filter_singleton, here, beq_self_eq_true]
  rfl

theorem messagesOf_empty {store : Store} (empty : store.messages = []) (entity : Entity) :
    messagesOf store entity = [] := by
  unfold messagesOf
  rw [empty]
  rfl

theorem apart_of_isolated {names : Names} (isolated : ∀ history store,
    ServicebusRun history store → (∀ event ∈ history, names.Allow event.input) →
      Isolated names history) : Apart names where
  queues one two namedOne namedTwo same := by
    by_contra different
    have untouched : ¬ Touches (sending one) two := by
      cases one with
      | queue name => exact fun equal => different equal.symm
      | subscription topic name =>
        rintro ⟨other, rfl⟩
        exact different (congrArg _ (subscriptionQueue_injective topic same))
    obtain ⟨allowed, allowedLast⟩ := allow_setup namedOne
    have frame := frame_last (setup one) (sending one) allowed allowedLast isolated namedTwo
      untouched
    obtain ⟨message, only, queue⟩ := sending_messages one
    rw [messagesOf_single only (queue.trans same), messagesOf_empty (setup_messages one)] at frame
    cases frame
  topics topic entity namedTopic plain named starts := by
    by_contra different
    have found := hasPrefix_subscriptionQueue.mpr ⟨starts, plain⟩
    obtain ⟨allowed, allowedSending⟩ := allow_setup named
    obtain ⟨message, only, queue⟩ := sending_messages entity
    have sent : Run.final perform Store.empty (setup entity ++ [sending entity]) =
        (perform (Run.final perform Store.empty (setup entity)) (sending entity)).2 :=
      Run.final_append perform Store.empty (setup entity) [sending entity]
    have frame := frame_last (setup entity ++ [sending entity]) (.deleteTopic topic)
      (fun call member => by
        rcases List.mem_append.mp member with old | new
        · exact allowed call old
        · rw [List.mem_singleton.mp new]
          exact allowedSending) namedTopic isolated named different
    rw [sent, messagesOf_single only queue] at frame
    have purged : (perform (perform (Run.final perform Store.empty (setup entity))
        (sending entity)).2 (.deleteTopic topic)).2.messages = [] := by
      show List.filter _ _ = []
      rw [only, List.filter_singleton, queue, found]
      rfl
    rw [messagesOf_empty purged] at frame
    cases frame

/-- **When the entities are isolated**: over a set of names, every run is isolated exactly when the
names are apart. -/
theorem isolated_iff (uuids : UuidLaws ‹External›) (names : Names) :
    (∀ history store, ServicebusRun history store →
      (∀ event ∈ history, names.Allow event.input) → Isolated names history) ↔ Apart names :=
  ⟨apart_of_isolated, fun apart _ _ run allowed => isolated_run uuids apart run allowed⟩

end External

/-! ### A run -/

section Sample

@[reducible]
local instance namesExternal : External := External.sample

/-- All names. -/
def allNames : Names where
  entity _ := True
  topic _ := True
  topicOf _ _ _ := trivial

/-- A queue, and two topics with a subscription each, the text of the one with the beginning of the
texts of the other. -/
def nulNames : Names where
  entity entity := entity ∈ [Entity.queue "orders", Entity.subscription "a\x00" "s",
    Entity.subscription "a\x00:sub:b" "s"]
  topic topic := topic ∈ ["a\x00", "a\x00:sub:b"]
  topicOf title name member := by
    rcases List.mem_cons.mp member with same | member
    · cases same
    · rcases List.mem_cons.mp member with same | member
      · cases same
        exact List.mem_cons_self
      · cases List.mem_singleton.mp member
        exact List.mem_cons_of_mem _ List.mem_cons_self

/-- Topics whose deletion purges nothing are isolated, although their texts begin alike. -/
theorem isolated_iff_sample : (startsWith (subscriptionQueue "a\x00:sub:b" "s")
      (subscriptionQueue "a\x00" "") = true) ∧
    ∀ history store, ServicebusRun history store →
      (∀ event ∈ history, nulNames.Allow event.input) → Isolated nulNames history := by
  refine ⟨by decide, (isolated_iff sample_laws nulNames).mpr ⟨?_, ?_⟩⟩
  · intro one two namedOne namedTwo same
    have texts : ([Entity.queue "orders", Entity.subscription "a\x00" "s",
        Entity.subscription "a\x00:sub:b" "s"].map Entity.queueName).Nodup := by decide
    exact List.inj_on_of_nodup_map texts namedOne namedTwo same
  · intro topic entity named plain _ _
    rcases List.mem_cons.mp named with rfl | named
    · exact absurd (by decide) plain
    · rw [List.mem_singleton.mp named] at plain
      exact absurd (by decide) plain

/-- A topic `a` with a subscription `b`, and a message for the queue `topic:a:sub:b`. -/
def confusedCalls : List Call :=
  [.createTopic "a", .createSubscription "a" "b", .createQueue "topic:a:sub:b",
    .sendMessage "topic:a:sub:b" "m", .receiveMessages (.subscription "a" "b") 1]

/-- The message to the queue is received from the subscription. -/
theorem queue_not_isolated : ∃ history store, ServicebusRun history store ∧
    ¬ Isolated allNames history := by
  refine ⟨Run.trace perform Store.empty confusedCalls, _, Run.of_trace perform _ _, ?_⟩
  intro isolated
  obtain ⟨sent, member, sentTo⟩ := isolated.source
    ((Run.trace perform Store.empty confusedCalls).take 4) _ [] (.subscription "a" "b") 1
    ⟨External.sample.uuid 0, "topic:a:sub:b", "m", External.sample.uuid 1, .locked⟩ rfl rfl
    ⟨_, _, _, rfl, rfl, by decide⟩
  have inputs : sent.input ∈ confusedCalls.take 4 := by
    have there := List.mem_map_of_mem (f := Event.input) member
    rwa [List.map_take, Run.trace_inputs] at there
  rcases sentTo with ⟨queue, other, _⟩ | ⟨topic, name, _, call, _⟩
  · cases other
  · rw [call] at inputs
    simp [confusedCalls] at inputs

end Sample

end CloudTwin.Servicebus
