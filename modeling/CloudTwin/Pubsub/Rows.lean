/-
**The rows of Pub/Sub.**

Message ids and ack ids are drawn at random, the rows of the messages are numbered, and a message is
fanned out once to each subscription. So a row is determined by its ack id, and by its subscription
and its message.

* `Ordered` — the invariant.
* `updateEach_eq` — what an update of several ack ids does to each row.
* `publish_ok` — the rows that a publish adds.
* `ordered_run` — every run keeps the invariant.
-/

import CloudTwin.Pubsub.Service
import Mathlib.Data.List.Nodup
import Mathlib.Data.List.Pairwise
import Mathlib.Data.List.ProdSigma

namespace CloudTwin.Pubsub

open Lib

set_option linter.unusedSectionVars false

/-! ### Updates -/

/-- An update of several ack ids changes each row at most once. -/
theorem updateEach_eq {condition : Ackable → Bool} {change : Ackable → Ackable}
    (keyed : ∀ row, (change row).ackId = row.ackId)
    (kept : ∀ row, condition (change row) = condition row)
    (again : ∀ row, change (change row) = change row) (ackIds : List String) :
    ∀ rows, updateEach rows ackIds condition change = rows.map fun row =>
      if row.ackId ∈ ackIds ∧ condition row = true then change row else row := by
  induction ackIds with
  | nil =>
    intro rows
    simp [updateEach]
  | cons ackId rest ih =>
    intro rows
    show updateEach (rows.map _) rest condition change = _
    rw [ih, List.map_map]
    refine List.map_congr_left fun row _ => ?_
    simp only [Function.comp_apply, List.mem_cons]
    by_cases here : row.ackId = ackId ∧ condition row = true
    · have whole : (row.ackId = ackId ∨ row.ackId ∈ rest) ∧ condition row = true :=
        ⟨Or.inl here.1, here.2⟩
      rw [if_pos here, keyed, kept, again, if_pos whole, ite_self]
    · rw [if_neg here]
      by_cases later : row.ackId ∈ rest ∧ condition row = true
      · rw [if_pos later, if_pos ⟨Or.inr later.1, later.2⟩]
      · rw [if_neg later, if_neg]
        rintro ⟨same | member, holds⟩
        · exact here ⟨same, holds⟩
        · exact later ⟨member, holds⟩

/-- The row is for the same message and subscription, under the same ack id. -/
structure SameRow (row changed : Ackable) : Prop where
  ackId : changed.ackId = row.ackId
  subscription : changed.subscription = row.subscription
  messageId : changed.messageId = row.messageId

theorem SameRow.refl (row : Ackable) : SameRow row row :=
  ⟨rfl, rfl, rfl⟩

section External

variable [External]

/-! ### The invariant -/

/-- **Rows have keys, messages have numbers.** -/
structure Ordered (store : Store) : Prop where
  ids : store.messages.Pairwise fun first second => first.id < second.id
  nextId : ∀ message ∈ store.messages, message.id < store.nextId
  messageIds : store.messages.Pairwise fun first second => first.messageId ≠ second.messageId
  drawn : ∀ message ∈ store.messages, ∃ draw < store.drawn, message.messageId = External.uuid draw
  ackDrawn : ∀ row ∈ store.ackables, ∃ draw < store.drawn, row.ackId = External.uuid draw
  ackIds : store.ackables.Pairwise fun first second => first.ackId ≠ second.ackId
  fanned : ∀ row ∈ store.ackables, ∃ message ∈ store.messages, message.messageId = row.messageId
  apart : store.ackables.Pairwise fun first second =>
    ¬ (first.subscription = second.subscription ∧ first.messageId = second.messageId)
  names : store.subscriptions.Pairwise fun first second => first.name ≠ second.name

namespace Ordered

variable {store : Store}

theorem empty : Ordered Store.empty :=
  ⟨List.Pairwise.nil, nofun, List.Pairwise.nil, nofun, nofun, List.Pairwise.nil, nofun,
    List.Pairwise.nil, List.Pairwise.nil⟩

/-- An ack id is that of one row. -/
theorem row_of_ackId (ordered : Ordered store) {first second : Ackable}
    (memberFirst : first ∈ store.ackables) (memberSecond : second ∈ store.ackables)
    (same : first.ackId = second.ackId) : first = second := by
  by_contra different
  have symmetric : Std.Symm fun first second : Ackable => first.ackId ≠ second.ackId :=
    ⟨fun _ _ apart => apart.symm⟩
  exact ordered.ackIds.forall memberFirst memberSecond different same

/-- A message is fanned out once to a subscription. -/
theorem row_of_message (ordered : Ordered store) {first second : Ackable}
    (memberFirst : first ∈ store.ackables) (memberSecond : second ∈ store.ackables)
    (subscription : first.subscription = second.subscription)
    (messageId : first.messageId = second.messageId) : first = second := by
  by_contra different
  have symmetric : Std.Symm fun first second : Ackable =>
      ¬ (first.subscription = second.subscription ∧ first.messageId = second.messageId) :=
    ⟨fun _ _ apart same => apart ⟨same.1.symm, same.2.symm⟩⟩
  exact ordered.apart.forall memberFirst memberSecond different ⟨subscription, messageId⟩

/-- A message id is that of one message. -/
theorem message_unique (ordered : Ordered store) {first second : Message}
    (memberFirst : first ∈ store.messages) (memberSecond : second ∈ store.messages)
    (same : first.messageId = second.messageId) : first = second := by
  by_contra different
  have symmetric : Std.Symm fun first second : Message => first.messageId ≠ second.messageId :=
    ⟨fun _ _ apart => apart.symm⟩
  exact ordered.messageIds.forall memberFirst memberSecond different same

/-- A name is that of one subscription. -/
theorem subscription_unique (ordered : Ordered store) {first second : Subscription}
    (memberFirst : first ∈ store.subscriptions) (memberSecond : second ∈ store.subscriptions)
    (same : first.name = second.name) : first = second := by
  by_contra different
  have symmetric : Std.Symm fun first second : Subscription => first.name ≠ second.name :=
    ⟨fun _ _ apart => apart.symm⟩
  exact ordered.names.forall memberFirst memberSecond different same

/-- Rows that change, but not in their keys. -/
theorem mapped (ordered : Ordered store) (change : Ackable → Ackable)
    (same : ∀ row, SameRow row (change row)) :
    Ordered { store with ackables := store.ackables.map change } where
  ids := ordered.ids
  nextId := ordered.nextId
  messageIds := ordered.messageIds
  drawn := ordered.drawn
  ackDrawn row member := by
    obtain ⟨old, memberOld, rfl⟩ := List.mem_map.mp member
    rw [(same old).ackId]
    exact ordered.ackDrawn old memberOld
  ackIds := by
    rw [List.pairwise_map]
    refine ordered.ackIds.imp fun {first second} apart => ?_
    rwa [(same first).ackId, (same second).ackId]
  fanned row member := by
    obtain ⟨old, memberOld, rfl⟩ := List.mem_map.mp member
    rw [(same old).messageId]
    exact ordered.fanned old memberOld
  apart := by
    rw [List.pairwise_map]
    refine ordered.apart.imp fun {first second} apart => ?_
    rwa [(same first).subscription, (same second).subscription, (same first).messageId,
      (same second).messageId]
  names := ordered.names

/-- Rows that go. -/
theorem filtered (ordered : Ordered store) (keep : Ackable → Bool) (keepName : Subscription → Bool) :
    Ordered { store with
      ackables := store.ackables.filter keep
      subscriptions := store.subscriptions.filter keepName } where
  ids := ordered.ids
  nextId := ordered.nextId
  messageIds := ordered.messageIds
  drawn := ordered.drawn
  ackDrawn row member := ordered.ackDrawn row (List.mem_filter.mp member).1
  ackIds := ordered.ackIds.filter _
  fanned row member := ordered.fanned row (List.mem_filter.mp member).1
  apart := ordered.apart.filter _
  names := ordered.names.filter _

end Ordered

/-! ### Publish -/

theorem mem_messageRows {store : Store} {topic : String} {messages : List OutgoingMessage}
    {now : Int} {row : Message} (member : row ∈ messageRows store topic messages now) :
    ∃ index, ∃ sent, messages[index]? = some sent ∧
      (messageRows store topic messages now)[index]? = some row ∧ index < messages.length ∧
      row.id = store.nextId + index ∧ row.messageId = External.uuid (store.drawn + index) ∧
      row.topic = topic ∧ row.data = sent.data ∧
      row.attributes = External.jsonToString sent.attributes := by
  obtain ⟨index, inside, rfl⟩ := List.mem_mapIdx.mp member
  refine ⟨index, messages[index], List.getElem?_eq_getElem inside, ?_, inside, rfl, rfl, rfl, rfl,
    rfl⟩
  unfold messageRows
  rw [List.getElem?_mapIdx, List.getElem?_eq_getElem inside, Option.map_some]

theorem length_messageRows (store : Store) (topic : String) (messages : List OutgoingMessage)
    (now : Int) : (messageRows store topic messages now).length = messages.length :=
  List.length_mapIdx

/-- The rows of the messages come in the order of their ids. -/
theorem messageRows_pairwise {store : Store} {topic : String} {messages : List OutgoingMessage}
    {now : Int} {Apart : Message → Message → Prop}
    (apart : ∀ first second : Message, ∀ earlier later, earlier < later →
      first.id = store.nextId + earlier → second.id = store.nextId + later →
      first.messageId = External.uuid (store.drawn + earlier) →
      second.messageId = External.uuid (store.drawn + later) → Apart first second) :
    (messageRows store topic messages now).Pairwise Apart := by
  unfold messageRows
  rw [List.pairwise_iff_getElem]
  intro earlier later insideEarlier insideLater before
  rw [List.getElem_mapIdx, List.getElem_mapIdx]
  exact apart _ _ earlier later before rfl rfl rfl rfl

theorem mem_ackableRows {store : Store} {rows : List Message} {subscriptions : List String}
    {row : Ackable} (member : row ∈ ackableRows store rows subscriptions) :
    (∃ index < (ackableRows store rows subscriptions).length,
      row.ackId = External.uuid (store.drawn + rows.length + index)) ∧
    (∃ message ∈ rows, message.messageId = row.messageId) ∧ row.subscription ∈ subscriptions ∧
    row.acked = false ∧ row.leaseUntil = none := by
  obtain ⟨index, inside, rfl⟩ := List.mem_mapIdx.mp member
  have pair := List.getElem_mem inside
  obtain ⟨message, memberMessage, named⟩ := List.mem_flatMap.mp pair
  obtain ⟨subscription, memberSubscription, same⟩ := List.mem_map.mp named
  refine ⟨⟨index, ?_, rfl⟩, ⟨message, memberMessage, ?_⟩, ?_, rfl, rfl⟩
  · unfold ackableRows
    rwa [List.length_mapIdx]
  · rw [← same]
  · rw [← same]
    exact memberSubscription

/-- A message gets a row for each subscription. -/
theorem ackableRows_complete {store : Store} {rows : List Message} {subscriptions : List String}
    {message : Message} {subscription : String} (member : message ∈ rows)
    (attached : subscription ∈ subscriptions) : ∃ row ∈ ackableRows store rows subscriptions,
      row.subscription = subscription ∧ row.messageId = message.messageId := by
  have pair : (message.messageId, subscription) ∈ rows.flatMap fun row =>
      subscriptions.map fun subscription => (row.messageId, subscription) :=
    List.mem_flatMap.mpr ⟨message, member, List.mem_map.mpr ⟨subscription, attached, rfl⟩⟩
  obtain ⟨index, inside, same⟩ := List.mem_iff_getElem.mp pair
  refine ⟨_, List.mem_mapIdx.mpr ⟨index, inside, rfl⟩, ?_, ?_⟩
  · rw [same]
  · rw [same]

theorem ackableRows_pairwise {store : Store} {rows : List Message} {subscriptions : List String}
    (uuids : UuidLaws ‹External›)
    (ids : rows.Pairwise fun first second => first.messageId ≠ second.messageId)
    (names : subscriptions.Nodup) :
    (ackableRows store rows subscriptions).Pairwise fun first second =>
      first.ackId ≠ second.ackId ∧
        ¬ (first.subscription = second.subscription ∧ first.messageId = second.messageId) := by
  have pairs : (rows.flatMap fun row => subscriptions.map fun subscription =>
      (row.messageId, subscription)).Nodup := by
    have nodup : (rows.map Message.messageId).Nodup := List.pairwise_map.mpr ids
    have product : ((rows.map Message.messageId).flatMap fun messageId =>
        subscriptions.map fun subscription => (messageId, subscription)).Nodup :=
      nodup.product names
    rwa [List.flatMap_map] at product
  unfold ackableRows
  rw [List.pairwise_iff_getElem]
  intro earlier later insideEarlier insideLater before
  rw [List.getElem_mapIdx, List.getElem_mapIdx]
  refine ⟨fun same => ?_, fun same => ?_⟩
  · have equal := uuids.fresh same
    omega
  · have equal := (pairs.getElem_inj_iff).mp (Prod.ext same.2 same.1)
    omega

/-- **What a publish stores.** -/
theorem publish_ok {store after : Store} {project topicName : String}
    {messages : List OutgoingMessage} {now : Int} {ids : List String}
    (done : publish store project topicName messages now = .ok (ids, after)) :
    ids = (messageRows store (fullTopic project topicName) messages now).map Message.messageId ∧
      after.subscriptions = store.subscriptions ∧
      after.messages =
        store.messages ++ messageRows store (fullTopic project topicName) messages now ∧
      after.ackables = store.ackables ++
        ackableRows store (messageRows store (fullTopic project topicName) messages now)
          (subscriptionsOf store (fullTopic project topicName)) ∧
      after.nextId = store.nextId + messages.length ∧
      after.drawn = store.drawn + messages.length +
        (ackableRows store (messageRows store (fullTopic project topicName) messages now)
          (subscriptionsOf store (fullTopic project topicName))).length := by
  obtain ⟨_, _, rest⟩ := bind_ok done
  obtain ⟨_, _, rest⟩ := bind_ok rest
  obtain ⟨_, _, rest⟩ := bind_ok rest
  cases rest
  refine ⟨rfl, rfl, rfl, rfl, ?_, ?_⟩
  · rw [← length_messageRows store (fullTopic project topicName) messages now]
  · rw [← length_messageRows store (fullTopic project topicName) messages now]

theorem mem_subscriptionsOf {store : Store} {topic subscription : String} :
    subscription ∈ subscriptionsOf store topic ↔
      ∃ row ∈ store.subscriptions, row.name = subscription ∧ row.topic = topic := by
  unfold subscriptionsOf
  rw [List.mem_map]
  constructor
  · rintro ⟨row, member, named⟩
    obtain ⟨stored, here⟩ := List.mem_filter.mp member
    exact ⟨row, stored, named, by simpa using here⟩
  · rintro ⟨row, stored, named, here⟩
    exact ⟨row, List.mem_filter.mpr ⟨stored, by simpa using here⟩, named⟩

theorem Ordered.published {store after : Store} {project topicName : String}
    {messages : List OutgoingMessage} {now : Int} {ids : List String} (uuids : UuidLaws ‹External›)
    (ordered : Ordered store)
    (done : publish store project topicName messages now = .ok (ids, after)) : Ordered after := by
  obtain ⟨_, subscriptions, rows, ackables, nextId, drawn⟩ := publish_ok done
  have names : (subscriptionsOf store (fullTopic project topicName)).Nodup :=
    List.pairwise_map.mpr (ordered.names.filter _)
  have apartRows : (messageRows store (fullTopic project topicName) messages now).Pairwise
      fun first second => first.messageId ≠ second.messageId :=
    messageRows_pairwise fun _ _ earlier later before _ _ one two same => by
      rw [one, two] at same
      have equal := uuids.fresh same
      omega
  have newRows := @ackableRows_pairwise _ store _ _ uuids apartRows names
  have length := length_messageRows store (fullTopic project topicName) messages now
  refine ⟨?_, ?_, ?_, ?_, ?_, ?_, ?_, ?_, ?_⟩
  · rw [rows, List.pairwise_append]
    refine ⟨ordered.ids, messageRows_pairwise fun _ _ earlier later before one two _ _ => ?_,
      fun old memberOld new memberNew => ?_⟩
    · omega
    · obtain ⟨index, _, _, _, _, id, _⟩ := mem_messageRows memberNew
      have := ordered.nextId old memberOld
      omega
  · rw [rows, nextId]
    intro row member
    rcases List.mem_append.mp member with old | new
    · have := ordered.nextId row old
      omega
    · obtain ⟨index, _, _, _, inside, id, _⟩ := mem_messageRows new
      omega
  · rw [rows, List.pairwise_append]
    refine ⟨ordered.messageIds, apartRows, fun old memberOld new memberNew same => ?_⟩
    obtain ⟨index, _, _, _, _, _, drawnNew, _⟩ := mem_messageRows memberNew
    obtain ⟨draw, early, drawnOld⟩ := ordered.drawn old memberOld
    have equal := uuids.fresh (drawnOld.symm.trans (same.trans drawnNew))
    omega
  · rw [rows, drawn]
    intro row member
    rcases List.mem_append.mp member with old | new
    · obtain ⟨draw, early, same⟩ := ordered.drawn row old
      exact ⟨draw, by omega, same⟩
    · obtain ⟨index, _, _, _, inside, _, same, _⟩ := mem_messageRows new
      exact ⟨store.drawn + index, by omega, same⟩
  · rw [ackables, drawn]
    intro row member
    rcases List.mem_append.mp member with old | new
    · obtain ⟨draw, early, same⟩ := ordered.ackDrawn row old
      exact ⟨draw, by omega, same⟩
    · obtain ⟨⟨index, inside, same⟩, _⟩ := mem_ackableRows new
      exact ⟨_, by omega, same⟩
  · rw [ackables, List.pairwise_append]
    refine ⟨ordered.ackIds, newRows.imp fun apart => apart.1, fun old memberOld new memberNew same => ?_⟩
    obtain ⟨⟨index, _, drawnNew⟩, _⟩ := mem_ackableRows memberNew
    obtain ⟨draw, early, drawnOld⟩ := ordered.ackDrawn old memberOld
    have equal := uuids.fresh (drawnOld.symm.trans (same.trans drawnNew))
    omega
  · rw [ackables, rows]
    intro row member
    rcases List.mem_append.mp member with old | new
    · obtain ⟨message, memberMessage, same⟩ := ordered.fanned row old
      exact ⟨message, List.mem_append_left _ memberMessage, same⟩
    · obtain ⟨_, ⟨message, memberMessage, same⟩, _⟩ := mem_ackableRows new
      exact ⟨message, List.mem_append_right _ memberMessage, same⟩
  · rw [ackables, List.pairwise_append]
    refine ⟨ordered.apart, newRows.imp fun apart => apart.2,
      fun old memberOld new memberNew same => ?_⟩
    obtain ⟨_, ⟨message, memberMessage, sameNew⟩, _⟩ := mem_ackableRows memberNew
    obtain ⟨index, _, _, _, _, _, drawnNew, _⟩ := mem_messageRows memberMessage
    obtain ⟨stored, memberStored, sameOld⟩ := ordered.fanned old memberOld
    obtain ⟨draw, early, drawnOld⟩ := ordered.drawn stored memberStored
    have equal := uuids.fresh (drawnOld.symm.trans (sameOld.trans (same.2.trans
      (sameNew.symm.trans drawnNew))))
    omega
  · rw [subscriptions]
    exact ordered.names

/-! ### Every call -/

theorem findSubscription_some {store : Store} {name : String} {row : Subscription}
    (found : findSubscription store name = some row) :
    row ∈ store.subscriptions ∧ row.name = name :=
  ⟨List.mem_of_find?_eq_some found, by simpa using List.find?_some found⟩

/-- The rows of a pull, and what it does to their leases. -/
theorem pull_ok {store after : Store} {project name : String} {maxMessages now : Int}
    {rows : List (Ackable × Message)}
    (done : pull store project name maxMessages now = .ok (rows, after)) :
    ∃ row, findSubscription store (fullSub project name) = some row ∧
      rows = ((withMessages store (store.ackables.filter fun row =>
        row.isDue (fullSub project name) now)).insertionSort publishedBefore).take
          (pullLimit maxMessages) ∧
      after = { store with ackables := store.ackables.map fun ackable =>
        if ackable.ackId ∈ rows.map (fun row => row.1.ackId) then
          { ackable with leaseUntil := some (now + row.ackDeadlineSeconds * 1000) }
        else ackable } := by
  obtain ⟨row, found, rest⟩ := bind_ok done
  rw [okOr_ok] at found
  cases rest
  refine ⟨row, found, rfl, ?_⟩
  rw [updateEach_eq]
  · simp only [and_true]
  all_goals exact fun _ => rfl

theorem acknowledge_ok {store after : Store} {project name : String} {ackIds : List String}
    (done : acknowledge store project name ackIds = .ok after) :
    after = { store with ackables := store.ackables.map fun row =>
      if row.ackId ∈ ackIds ∧ row.subscription = fullSub project name then
        { row with acked := true } else row } := by
  obtain ⟨_, _, rest⟩ := bind_ok done
  cases rest
  rw [updateEach_eq]
  · simp only [beq_iff_eq]
  all_goals exact fun _ => rfl

theorem modifyAckDeadline_ok {store after : Store} {project name : String} {ackIds : List String}
    {seconds now : Int}
    (done : modifyAckDeadline store project name ackIds seconds now = .ok after) :
    after = { store with ackables := store.ackables.map fun row =>
      if row.ackId ∈ ackIds ∧ row.subscription = fullSub project name ∧ row.acked = false then
        { row with leaseUntil := some (now + seconds * 1000) } else row } := by
  obtain ⟨_, _, rest⟩ := bind_ok done
  obtain ⟨_, _, rest⟩ := bind_ok rest
  cases rest
  rw [updateEach_eq]
  · simp only [Bool.and_eq_true, beq_iff_eq, Bool.not_eq_true']
  all_goals exact fun _ => rfl

theorem Ordered.execute {project : String} {store after : Store} {input : Input}
    {response : Response} (uuids : UuidLaws ‹External›) (ordered : Ordered store)
    (done : execute project store input = .ok (response, after)) : Ordered after := by
  unfold Pubsub.execute at done
  cases call : input.call with
  | createTopic name =>
    simp only [call] at done
    obtain ⟨_, _, rest⟩ := bind_ok (noAnswer_ok done).1
    cases rest
    exact { ordered with }
  | deleteTopic name =>
    simp only [call] at done
    obtain ⟨_, _, rest⟩ := bind_ok (noAnswer_ok done).1
    cases rest
    exact { ordered with }
  | createSubscription name topicName asked =>
    simp only [call] at done
    obtain ⟨_, made, _⟩ := answerWith_ok done
    obtain ⟨_, _, rest⟩ := bind_ok made
    obtain ⟨_, _, rest⟩ := bind_ok rest
    obtain ⟨_, absent, rest⟩ := bind_ok rest
    cases rest
    rw [rejectIf_ok, Option.not_isSome_iff_eq_none, findSubscription, List.find?_eq_none] at absent
    refine { ordered with names := ?_ }
    refine List.pairwise_append.mpr ⟨ordered.names, List.pairwise_singleton _ _, ?_⟩
    intro old memberOld new memberNew same
    rw [List.mem_singleton.mp memberNew] at same
    exact absent old memberOld (by simpa using same)
  | deleteSubscription name =>
    simp only [call] at done
    obtain ⟨_, _, rest⟩ := bind_ok (noAnswer_ok done).1
    cases rest
    exact ordered.filtered _ _
  | publish topicName messages =>
    simp only [call] at done
    obtain ⟨_, made, _⟩ := answerWith_ok done
    exact ordered.published uuids made
  | pull name maxMessages =>
    simp only [call] at done
    obtain ⟨_, made, _⟩ := answerWith_ok done
    obtain ⟨_, _, _, rfl⟩ := pull_ok made
    refine ordered.mapped _ fun row => ?_
    split <;> exact ⟨rfl, rfl, rfl⟩
  | acknowledge name ackIds =>
    simp only [call] at done
    rw [acknowledge_ok (noAnswer_ok done).1]
    refine ordered.mapped _ fun row => ?_
    split <;> exact ⟨rfl, rfl, rfl⟩
  | modifyAckDeadline name ackIds seconds =>
    simp only [call] at done
    rw [modifyAckDeadline_ok (noAnswer_ok done).1]
    refine ordered.mapped _ fun row => ?_
    split <;> exact ⟨rfl, rfl, rfl⟩

theorem Ordered.taken {project : String} (uuids : UuidLaws ‹External›) {event : PubsubEvent}
    (taken : event.Taken (perform project)) (ordered : Ordered event.before) :
    Ordered event.after := by
  rcases taken_commit taken with ⟨_, _, same⟩ | ⟨_, _, done⟩
  · rw [same]
    exact ordered
  · exact ordered.execute uuids done

/-- **Every run keeps the invariant.** -/
theorem ordered_run {project : String} (uuids : UuidLaws ‹External›) {start store : Store}
    {history : List PubsubEvent} (run : Run (perform project) start history store)
    (ordered : Ordered start) : Ordered store :=
  run.invariant ordered fun _ taken before => before.taken uuids taken

end External

end CloudTwin.Pubsub
