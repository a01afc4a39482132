/-
**The messages of the Service Bus.**

A lock token is drawn when a message is stored, and stays with the message: so it names one row, and
a receive or a settlement changes no other.

* `Stored` — the invariant: each row has its own token, and its own place.
* `origin_taken` — where a row comes from, and how it may have changed.
* `returns_taken`, `settles_taken` — what a receive and a settlement do to a row.
-/

import CloudTwin.Servicebus.Service
import Mathlib.Data.List.Nodup
import Mathlib.Data.List.Pairwise
import Mathlib.Data.String.Lemmas

namespace CloudTwin.Servicebus

open Lib

set_option linter.unusedSectionVars false

section External

variable [External]

/-! ### Events -/

/-- The event is a receive that returned the message. -/
def Returns (event : ServicebusEvent) (message : AsbMessage) : Prop :=
  ∃ entity limit messages, event.input = .receiveMessages entity limit ∧
    event.output = .received messages ∧ message ∈ messages

/-- The event settled a message of the entity with the token. -/
def Settles (event : ServicebusEvent) (entity : Entity) (token : String)
    (settlement : Settlement) : Prop :=
  event.input = .settle entity token settlement ∧ event.output = .settled true

/-! ### The invariant -/

/-- **Rows have tokens and places of their own.** -/
structure Stored (store : Store) : Prop where
  tokens : store.messages.Pairwise fun first second => first.lockToken ≠ second.lockToken
  places : store.messages.Pairwise fun first second =>
    ¬ (first.messageId = second.messageId ∧ first.queueName = second.queueName)
  tokenDrawn : ∀ message ∈ store.messages, ∃ draw < store.drawn,
    message.lockToken = External.uuid draw
  idDrawn : ∀ message ∈ store.messages, ∃ draw < store.drawn,
    message.messageId = External.uuid draw
  subscriptions : store.subscriptions.Nodup

/-- The row is the same message, in some state. -/
structure SameMessage (old later : AsbMessage) : Prop where
  messageId : later.messageId = old.messageId
  queueName : later.queueName = old.queueName
  body : later.body = old.body
  lockToken : later.lockToken = old.lockToken

theorem SameMessage.refl (message : AsbMessage) : SameMessage message message :=
  ⟨rfl, rfl, rfl, rfl⟩

namespace Stored

variable {store : Store}

theorem empty : Stored Store.empty :=
  ⟨List.Pairwise.nil, List.Pairwise.nil, nofun, nofun, List.nodup_nil⟩

/-- A place under a message id is that of one row. -/
theorem row_of_place (stored : Stored store) {first second : AsbMessage}
    (memberFirst : first ∈ store.messages) (memberSecond : second ∈ store.messages)
    (messageId : first.messageId = second.messageId)
    (queueName : first.queueName = second.queueName) : first = second := by
  by_contra different
  have symmetric : Std.Symm fun first second : AsbMessage =>
      ¬ (first.messageId = second.messageId ∧ first.queueName = second.queueName) :=
    ⟨fun _ _ apart same => apart ⟨same.1.symm, same.2.symm⟩⟩
  exact stored.places.forall memberFirst memberSecond different ⟨messageId, queueName⟩

/-- A token is that of one row. -/
theorem row_of_token (stored : Stored store) {first second : AsbMessage}
    (memberFirst : first ∈ store.messages) (memberSecond : second ∈ store.messages)
    (same : first.lockToken = second.lockToken) : first = second := by
  by_contra different
  have symmetric : Std.Symm fun first second : AsbMessage =>
      first.lockToken ≠ second.lockToken := ⟨fun _ _ apart => apart.symm⟩
  exact stored.tokens.forall memberFirst memberSecond different same

/-- Rows that change only in their state, some of which go. -/
theorem changed (stored : Stored store) (keep : AsbMessage → Bool)
    (change : AsbMessage → AsbMessage) (same : ∀ message, SameMessage message (change message)) :
    Stored { store with messages := (store.messages.filter keep).map change } where
  tokens := by
    rw [List.pairwise_map]
    refine (stored.tokens.filter keep).imp fun {first second} apart => ?_
    rwa [(same first).lockToken, (same second).lockToken]
  places := by
    rw [List.pairwise_map]
    refine (stored.places.filter keep).imp fun {first second} apart => ?_
    rwa [(same first).messageId, (same second).messageId, (same first).queueName,
      (same second).queueName]
  tokenDrawn message member := by
    obtain ⟨old, kept, rfl⟩ := List.mem_map.mp member
    rw [(same old).lockToken]
    exact stored.tokenDrawn old (List.mem_filter.mp kept).1
  idDrawn message member := by
    obtain ⟨old, kept, rfl⟩ := List.mem_map.mp member
    rw [(same old).messageId]
    exact stored.idDrawn old (List.mem_filter.mp kept).1
  subscriptions := stored.subscriptions

/-- New rows, under tokens and an id that are drawn for them. -/
theorem added (stored : Stored store) (uuids : UuidLaws ‹External›) {messageId : String}
    {rows : List AsbMessage} {first : Nat} (messageIdDrawn : messageId = External.uuid store.drawn)
    (begins : store.drawn < first)
    (drawn : ∀ index, ∀ row, rows[index]? = some row →
      row.messageId = messageId ∧ row.lockToken = External.uuid (first + index))
    (apart : rows.Pairwise fun one two => one.queueName ≠ two.queueName) :
    Stored { store with messages := store.messages ++ rows, drawn := first + rows.length } := by
  have drawnOf : ∀ row ∈ rows, row.messageId = messageId ∧
      ∃ index < rows.length, row.lockToken = External.uuid (first + index) := by
    intro row member
    obtain ⟨index, inside, rfl⟩ := List.mem_iff_getElem.mp member
    obtain ⟨id, token⟩ := drawn index _ (List.getElem?_eq_getElem inside)
    exact ⟨id, index, inside, token⟩
  refine ⟨List.pairwise_append.mpr ⟨stored.tokens, ?_, ?_⟩,
    List.pairwise_append.mpr ⟨stored.places, apart.imp fun different same => different same.2, ?_⟩,
    ?_, ?_, stored.subscriptions⟩
  · rw [List.pairwise_iff_getElem]
    intro one two insideOne insideTwo before same
    rw [(drawn one _ (List.getElem?_eq_getElem insideOne)).2,
      (drawn two _ (List.getElem?_eq_getElem insideTwo)).2] at same
    have equal := uuids.fresh same
    omega
  · intro old memberOld new memberNew same
    obtain ⟨draw, early, token⟩ := stored.tokenDrawn old memberOld
    obtain ⟨_, index, _, tokenNew⟩ := drawnOf new memberNew
    have equal := uuids.fresh (token.symm.trans (same.trans tokenNew))
    omega
  · rintro old memberOld new memberNew ⟨same, _⟩
    obtain ⟨draw, early, id⟩ := stored.idDrawn old memberOld
    have equal := uuids.fresh (id.symm.trans (same.trans
      ((drawnOf new memberNew).1.trans messageIdDrawn)))
    omega
  · intro row member
    rcases List.mem_append.mp member with old | new
    · obtain ⟨draw, early, token⟩ := stored.tokenDrawn row old
      refine ⟨draw, ?_, token⟩
      show draw < first + rows.length
      omega
    · obtain ⟨_, index, inside, token⟩ := drawnOf row new
      exact ⟨first + index, Nat.add_lt_add_left inside _, token⟩
  · intro row member
    rcases List.mem_append.mp member with old | new
    · obtain ⟨draw, early, id⟩ := stored.idDrawn row old
      refine ⟨draw, ?_, id⟩
      show draw < first + rows.length
      omega
    · refine ⟨store.drawn, ?_, (drawnOf row new).1.trans messageIdDrawn⟩
      show store.drawn < first + rows.length
      omega

end Stored

/-! ### One step -/

/-- How a row may change in a step. -/
structure Evolves (event : ServicebusEvent) (old later : AsbMessage) : Prop where
  same : SameMessage old later
  moves : later.visible = old.visible ∨
    (old.visible = .active ∧ later.visible = .locked ∧ Returns event later) ∨
    (old.visible = .locked ∧ later.visible ≠ .locked ∧
      ∃ entity settlement, Settles event entity later.lockToken settlement ∧
        settlement.state = some later.visible)

theorem Evolves.refl (event : ServicebusEvent) (message : AsbMessage) :
    Evolves event message message :=
  ⟨SameMessage.refl message, Or.inl rfl⟩

/-- The row was stored by the event. -/
structure Inserted (event : ServicebusEvent) (message : AsbMessage) : Prop where
  token : ∃ draw, event.before.drawn ≤ draw ∧ message.lockToken = External.uuid draw
  messageId : message.messageId = External.uuid event.before.drawn
  visible : message.visible = .active
  sent : event.input = .sendMessage message.queueName message.body ∨
    ∃ topic name, event.input = .sendTopicMessage topic message.body ∧
      (⟨name, topic⟩ : AsbSubscription) ∈ event.before.subscriptions ∧
      message.queueName = subscriptionQueue topic name

theorem mem_subscriptionsOf {store : Store} {topic name : String} :
    name ∈ subscriptionsOf store topic ↔
      (⟨name, topic⟩ : AsbSubscription) ∈ store.subscriptions := by
  unfold subscriptionsOf
  rw [List.mem_mergeSort, List.mem_map]
  constructor
  · rintro ⟨⟨name, other⟩, member, rfl⟩
    obtain ⟨stored, here⟩ := List.mem_filter.mp member
    have same : other = topic := by simpa using here
    rwa [← same]
  · intro stored
    exact ⟨_, List.mem_filter.mpr ⟨stored, by simp⟩, rfl⟩

theorem nodup_subscriptionsOf {store : Store} (nodup : store.subscriptions.Nodup)
    (topic : String) : (subscriptionsOf store topic).Nodup := by
  unfold subscriptionsOf
  rw [(List.mergeSort_perm _ _).nodup_iff]
  refine (nodup.filter _).map_on fun first memberFirst second memberSecond same => ?_
  obtain ⟨_, hereFirst⟩ := List.mem_filter.mp memberFirst
  obtain ⟨_, hereSecond⟩ := List.mem_filter.mp memberSecond
  obtain ⟨name, topicFirst⟩ := first
  obtain ⟨name', topicSecond⟩ := second
  simp only [beq_iff_eq] at hereFirst hereSecond
  simp only at same
  rw [same, hereFirst, hereSecond]

theorem subscriptionQueue_injective (topic : String) :
    Function.Injective (subscriptionQueue topic) := by
  intro first second same
  unfold subscriptionQueue at same
  have lists := congrArg String.toList same
  simp only [String.toList_append] at lists
  exact String.toList_inj.mp (List.append_cancel_left lists)

theorem getElem?_copies {store : Store} {topic body : String} {index : Nat} {row : AsbMessage}
    (found : (copies store topic body)[index]? = some row) : ∃ name,
      (subscriptionsOf store topic)[index]? = some name ∧
      row = newMessage (store.drawn + 1 + index) (External.uuid store.drawn)
        (subscriptionQueue topic name) body := by
  unfold copies at found
  rw [List.getElem?_mapIdx] at found
  obtain ⟨name, here, same⟩ := Option.map_eq_some_iff.mp found
  exact ⟨name, here, same.symm⟩

theorem after_taken {event : ServicebusEvent} (taken : event.Taken perform) :
    event.after = (perform event.before event.input).2 :=
  (congrArg Prod.snd taken).symm

theorem output_taken {event : ServicebusEvent} (taken : event.Taken perform) :
    event.output = (perform event.before event.input).1 :=
  (congrArg Prod.fst taken).symm

theorem Stored.taken {event : ServicebusEvent} (uuids : UuidLaws ‹External›)
    (taken : event.Taken perform) (stored : Stored event.before) : Stored event.after := by
  rw [after_taken taken]
  unfold perform
  cases event.input with
  | createQueue name =>
    show Stored (createQueue _ _)
    unfold createQueue
    split
    · exact stored
    · exact { stored with }
  | deleteQueue name =>
    have kept := stored.changed (fun message => message.queueName != name) id SameMessage.refl
    rw [List.map_id] at kept
    exact { kept with }
  | createTopic name =>
    show Stored (createTopic _ _)
    unfold createTopic
    split
    · exact stored
    · exact { stored with }
  | deleteTopic name =>
    have kept := stored.changed
      (fun message => !Sqlite.hasPrefix message.queueName (subscriptionQueue name "")) id
      SameMessage.refl
    rw [List.map_id] at kept
    exact { kept with subscriptions := stored.subscriptions.filter _ }
  | createSubscription topic name =>
    show Stored (createSubscription _ _ _).2
    unfold createSubscription
    by_cases missing : event.before.topics.contains topic = false
    · rw [if_pos missing]
      exact stored
    · rw [if_neg missing]
      by_cases there : event.before.subscriptions.contains ⟨name, topic⟩ = true
      · rw [if_pos there]
        exact stored
      · rw [if_neg there]
        refine { stored with subscriptions := ?_ }
        refine stored.subscriptions.append (List.nodup_singleton _) ?_
        rw [List.disjoint_singleton]
        simpa using there
  | deleteSubscription topic name =>
    have kept := stored.changed (fun message => message.queueName != subscriptionQueue topic name)
      id SameMessage.refl
    rw [List.map_id] at kept
    exact { kept with subscriptions := stored.subscriptions.filter _ }
  | sendMessage queue body =>
    show Stored (sendMessage _ _ _).2
    unfold sendMessage
    split
    · exact stored
    · refine @Stored.added _ _ stored uuids _ [newMessage (event.before.drawn + 1) _ queue body]
        (event.before.drawn + 1) rfl (Nat.lt_succ_self _) ?_ (List.pairwise_singleton _ _)
      intro index row found
      cases index with
      | zero =>
        cases found
        exact ⟨rfl, rfl⟩
      | succ index => simp at found
  | sendTopicMessage topic body =>
    show Stored (sendTopicMessage _ _ _).2
    unfold sendTopicMessage
    split
    · exact stored
    · refine @Stored.added _ _ stored uuids _ (copies event.before topic body)
        (event.before.drawn + 1) rfl (Nat.lt_succ_self _) ?_ ?_
      · intro index row found
        obtain ⟨name, _, rfl⟩ := getElem?_copies found
        exact ⟨rfl, rfl⟩
      · rw [List.pairwise_iff_getElem]
        intro one two insideOne insideTwo before same
        obtain ⟨first, hereFirst, rowFirst⟩ :=
          getElem?_copies (List.getElem?_eq_getElem insideOne)
        obtain ⟨second, hereSecond, rowSecond⟩ :=
          getElem?_copies (List.getElem?_eq_getElem insideTwo)
        rw [rowFirst, rowSecond] at same
        have names : first = second := subscriptionQueue_injective topic same
        rw [names, ← hereSecond] at hereFirst
        have nodup := nodup_subscriptionsOf stored.subscriptions topic
        have inside : one < (subscriptionsOf event.before topic).length := by
          by_contra outside
          rw [List.getElem?_eq_none (Nat.not_lt.mp outside), hereSecond] at hereFirst
          cases hereFirst
        have equal := (List.getElem?_inj inside nodup).mp hereFirst
        omega
  | receiveMessages entity limit =>
    have kept := stored.changed (fun _ => true) (fun message =>
      if message.lockToken ∈ (receivable event.before entity.queueName limit).map
        AsbMessage.lockToken then { message with visible := .locked } else message)
      (fun message => by split <;> exact ⟨rfl, rfl, rfl, rfl⟩)
    rw [List.filter_true] at kept
    exact kept
  | settle entity lockToken settlement =>
    cases state : settlement.state with
    | none =>
      have kept := stored.changed (fun message => !(message.queueName == entity.queueName &&
        message.lockToken == lockToken)) id SameMessage.refl
      rw [List.map_id] at kept
      show Stored (settle _ _ _ settlement.state).2
      rw [state]
      exact kept
    | some target =>
      have kept := stored.changed (fun _ => true) (fun message =>
        if message.queueName == entity.queueName && message.lockToken == lockToken &&
          message.visible == .locked then { message with visible := target } else message)
        (fun message => by split <;> exact ⟨rfl, rfl, rfl, rfl⟩)
      rw [List.filter_true] at kept
      show Stored (settle _ _ _ settlement.state).2
      rw [state]
      exact kept

/-- **Every run keeps the invariant.** -/
theorem stored_run {start store : Store} {history : List ServicebusEvent}
    (uuids : UuidLaws ‹External›) (run : Run perform start history store)
    (stored : Stored start) : Stored store :=
  run.invariant stored fun _ taken before => before.taken uuids taken

/-! ### Where a row comes from -/

theorem mem_receivable {store : Store} {queueName : String} {limit : Int} {message : AsbMessage}
    (found : message ∈ receivable store queueName limit) :
    message ∈ store.messages ∧ message.queueName = queueName ∧ message.visible = .active := by
  obtain ⟨stored, here⟩ := List.mem_filter.mp (List.mem_of_mem_take found)
  simp only [Bool.and_eq_true, beq_iff_eq] at here
  exact ⟨stored, here⟩

/-- The rows of a step that only stores or removes rows. -/
theorem origin_of_sublist {event : ServicebusEvent}
    (kept : ∀ later ∈ event.after.messages, later ∈ event.before.messages) :
    ∀ later ∈ event.after.messages,
      (∃ old ∈ event.before.messages, Evolves event old later) ∨ Inserted event later :=
  fun later member => Or.inl ⟨later, kept later member, Evolves.refl event later⟩

/-- **Where a row comes from, and how it may have changed.** -/
theorem origin_taken {event : ServicebusEvent} (taken : event.Taken perform)
    (unique : Stored event.before) : ∀ later ∈ event.after.messages,
      (∃ old ∈ event.before.messages, Evolves event old later) ∨ Inserted event later := by
  have after := after_taken taken
  have output := output_taken taken
  unfold perform at after output
  cases call : event.input with
  | createQueue name =>
    rw [call] at after
    refine origin_of_sublist fun later member => ?_
    rw [after] at member
    simp only [createQueue] at member
    split at member <;> exact member
  | deleteQueue name =>
    rw [call] at after
    refine origin_of_sublist fun later member => ?_
    rw [after] at member
    exact (List.mem_filter.mp member).1
  | createTopic name =>
    rw [call] at after
    refine origin_of_sublist fun later member => ?_
    rw [after] at member
    simp only [createTopic] at member
    split at member <;> exact member
  | deleteTopic name =>
    rw [call] at after
    refine origin_of_sublist fun later member => ?_
    rw [after] at member
    exact (List.mem_filter.mp member).1
  | createSubscription topic name =>
    rw [call] at after
    refine origin_of_sublist fun later member => ?_
    rw [after] at member
    simp only [createSubscription, Prod.map_snd, id] at member
    split at member
    · exact member
    · split at member <;> exact member
  | deleteSubscription topic name =>
    rw [call] at after
    refine origin_of_sublist fun later member => ?_
    rw [after] at member
    exact (List.mem_filter.mp member).1
  | sendMessage queue body =>
    rw [call] at after
    intro later member
    rw [after] at member
    simp only [sendMessage, Prod.map_snd, id] at member
    split at member
    · exact Or.inl ⟨later, member, Evolves.refl event later⟩
    · rcases List.mem_append.mp member with old | new
      · exact Or.inl ⟨later, old, Evolves.refl event later⟩
      · rw [List.mem_singleton.mp new]
        exact Or.inr ⟨⟨_, Nat.le_succ _, rfl⟩, rfl, rfl, Or.inl call⟩
  | sendTopicMessage topic body =>
    rw [call] at after
    intro later member
    rw [after] at member
    simp only [sendTopicMessage, Prod.map_snd, id] at member
    split at member
    · exact Or.inl ⟨later, member, Evolves.refl event later⟩
    · rcases List.mem_append.mp member with old | new
      · exact Or.inl ⟨later, old, Evolves.refl event later⟩
      · obtain ⟨index, inside, rfl⟩ := List.mem_iff_getElem.mp new
        obtain ⟨name, here, row⟩ := getElem?_copies (List.getElem?_eq_getElem inside)
        rw [row]
        refine Or.inr ⟨⟨_, by omega, rfl⟩, rfl, rfl, Or.inr ⟨topic, name, call, ?_, rfl⟩⟩
        exact mem_subscriptionsOf.mp (List.mem_of_getElem? here)
  | receiveMessages entity limit =>
    rw [call] at after output
    intro later member
    rw [after] at member
    obtain ⟨old, stored, rfl⟩ := List.mem_map.mp member
    refine Or.inl ⟨old, stored, ?_⟩
    by_cases named : old.lockToken ∈ (receivable event.before entity.queueName limit).map
        AsbMessage.lockToken
    · rw [if_pos named]
      obtain ⟨selected, found, same⟩ := List.mem_map.mp named
      obtain ⟨member, here⟩ := mem_receivable found
      obtain rfl := unique.row_of_token member stored same
      refine ⟨⟨rfl, rfl, rfl, rfl⟩, Or.inr (Or.inl ⟨here.2, rfl, ?_⟩)⟩
      exact ⟨entity, limit, _, call, output, List.mem_map_of_mem found⟩
    · rw [if_neg named]
      exact Evolves.refl event old
  | settle entity lockToken settlement =>
    rw [call] at after output
    intro later member
    rw [after] at member
    cases state : settlement.state with
    | none =>
      simp only [settle, state] at member
      exact Or.inl ⟨later, (List.mem_filter.mp member).1, Evolves.refl event later⟩
    | some target =>
      simp only [settle, state] at member output
      obtain ⟨old, stored, rfl⟩ := List.mem_map.mp member
      refine Or.inl ⟨old, stored, ?_⟩
      by_cases here : (old.queueName == entity.queueName && old.lockToken == lockToken &&
          old.visible == .locked) = true
      · rw [if_pos here]
        have found : event.output = .settled true := by
          rw [output]
          exact congrArg Response.settled (List.any_eq_true.mpr ⟨old, stored, here⟩)
        simp only [Bool.and_eq_true, beq_iff_eq] at here
        by_cases relocked : target = .locked
        · rw [relocked, ← here.2]
          exact Evolves.refl event old
        · refine ⟨⟨rfl, rfl, rfl, rfl⟩, Or.inr (Or.inr ⟨here.2, relocked, entity, settlement,
            ⟨?_, found⟩, state⟩)⟩
          rw [call, ← here.1.2]
      · rw [if_neg here]
        exact Evolves.refl event old

/-! ### What a receive and a settlement do -/

/-- **The messages that a receive returns** were active, and are locked. -/
theorem returns_taken {event : ServicebusEvent} (taken : event.Taken perform)
    {message : AsbMessage} (returns : Returns event message) : ∃ entity limit,
      event.input = .receiveMessages entity limit ∧ message.queueName = entity.queueName ∧
      message.visible = .locked ∧ { message with visible := .active } ∈ event.before.messages ∧
      message ∈ event.after.messages := by
  obtain ⟨entity, limit, messages, call, answered, member⟩ := returns
  have after := after_taken taken
  have output := output_taken taken
  unfold perform at after output
  rw [call] at after output
  rw [output] at answered
  cases answered
  obtain ⟨selected, found, rfl⟩ := List.mem_map.mp member
  obtain ⟨stored, here⟩ := mem_receivable found
  refine ⟨entity, limit, call, here.1, rfl, ?_, ?_⟩
  · have same : { selected with visible := .active } = selected := by
      rw [← here.2]
    show { selected with visible := .active } ∈ event.before.messages
    rwa [same]
  · rw [after]
    refine List.mem_map.mpr ⟨selected, stored, ?_⟩
    rw [if_pos (List.mem_map_of_mem found)]

/-- **What a settlement does**: it found a row with the token in its queue, one that was locked
unless it is deleted. -/
theorem settles_taken {event : ServicebusEvent} (taken : event.Taken perform) {entity : Entity}
    {token : String} {settlement : Settlement} (settles : Settles event entity token settlement) :
    (∃ message ∈ event.before.messages, message.queueName = entity.queueName ∧
      message.lockToken = token ∧ (settlement ≠ .complete → message.visible = .locked)) ∧
    event.after = (settle event.before entity.queueName token settlement.state).2 := by
  obtain ⟨call, answered⟩ := settles
  have after := after_taken taken
  have output := output_taken taken
  unfold perform at after output
  rw [call] at after output
  refine ⟨?_, after⟩
  rw [output] at answered
  have found : (settle event.before entity.queueName token settlement.state).1 = true :=
    Response.settled.inj answered
  cases settlement with
  | complete =>
    obtain ⟨message, stored, here⟩ := List.any_eq_true.mp found
    simp only [Bool.and_eq_true, beq_iff_eq] at here
    exact ⟨message, stored, here.1, here.2, fun other => absurd rfl other⟩
  | abandon =>
    obtain ⟨message, stored, here⟩ := List.any_eq_true.mp found
    simp only [Bool.and_eq_true, beq_iff_eq] at here
    exact ⟨message, stored, here.1.1, here.1.2, fun _ => here.2⟩
  | deadletter =>
    obtain ⟨message, stored, here⟩ := List.any_eq_true.mp found
    simp only [Bool.and_eq_true, beq_iff_eq] at here
    exact ⟨message, stored, here.1.1, here.1.2, fun _ => here.2⟩

end External

end CloudTwin.Servicebus
