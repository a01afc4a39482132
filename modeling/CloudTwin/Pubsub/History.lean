/-
**What the history says about a row of `pubsub_ackables`.**

A publish adds a row for each subscription of the topic. From then on the history tells what the row
is: it goes when the subscription is deleted, it is acked once an acknowledgement named it, and its
lease is the one that the last pull or deadline change set.

* `FansOut`, `Deletes`, `Acknowledges`, `Leases` — what an event did.
* `effect_taken` — what one call does to every row.
* `Since` — the row after some events, and `since_run`, `since_stored` — the rows of a run.
* `publishedIds` — the ids of all messages, in publish order.
-/

import CloudTwin.Pubsub.Rows

namespace CloudTwin.Pubsub

open Lib

set_option linter.unusedSectionVars false

section External

variable [External]

/-! ### What an event did -/

/-- The subscription is attached to the topic. -/
def Attached (store : Store) (subscription topic : String) : Prop :=
  ∃ row ∈ store.subscriptions, row.name = subscription ∧ row.topic = topic

/-- The message ids that a publish answered. -/
def publishedBy (event : PubsubEvent) : List String :=
  match event.output with
  | .ok (.published messageIds) => messageIds
  | _ => []

/-- The ids of all messages published so far, in publish order. -/
def publishedIds (history : List PubsubEvent) : List String :=
  history.flatMap publishedBy

/-- The event published the message: what was sent, to the topic, under one of the ids answered. -/
def Publishes (project : String) (event : PubsubEvent) (message : Message) : Prop :=
  ∃ topicName messages ids, ∃ index : Nat, ∃ sent : OutgoingMessage,
    event.input.call = .publish topicName messages ∧
    event.output = .ok (.published ids) ∧ messages[index]? = some sent ∧
    ids[index]? = some message.messageId ∧ message.topic = fullTopic project topicName ∧
    message.data = sent.data ∧ message.attributes = External.jsonToString sent.attributes

/-- The event published the message of the row, and added the row. -/
structure FansOut (event : PubsubEvent) (row : Ackable) : Prop where
  published : row.messageId ∈ publishedBy event
  absent : row ∉ event.before.ackables
  stored : row ∈ event.after.ackables

def Deletes (project : String) (event : PubsubEvent) (subscription : String) : Prop :=
  ∃ name, event.input.call = .deleteSubscription name ∧ fullSub project name = subscription ∧
    event.output = .ok .done

def Pulls (project : String) (event : PubsubEvent) (subscription : String)
    (rows : List (Ackable × Message)) : Prop :=
  ∃ name maxMessages, event.input.call = .pull name maxMessages ∧
    fullSub project name = subscription ∧ event.output = .ok (.received rows)

def Acknowledges (project : String) (event : PubsubEvent) (subscription ackId : String) : Prop :=
  ∃ name ackIds, event.input.call = .acknowledge name ackIds ∧
    fullSub project name = subscription ∧ ackId ∈ ackIds ∧ event.output = .ok .done

def Modifies (project : String) (event : PubsubEvent) (subscription ackId : String)
    (seconds : Int) : Prop :=
  ∃ name ackIds, event.input.call = .modifyAckDeadline name ackIds seconds ∧
    fullSub project name = subscription ∧ ackId ∈ ackIds ∧ event.output = .ok .done

/-- The ack deadline of the subscription. -/
def deadlineOf (store : Store) (subscription : String) : Option Int :=
  (findSubscription store subscription).map Subscription.ackDeadlineSeconds

/-- **The event leased the ack id**: a pull that returned it, for the deadline of the subscription,
or a deadline change. -/
def Leases (project : String) (event : PubsubEvent) (subscription ackId : String) (stop : Int) :
    Prop :=
  (∃ rows row deadline, Pulls project event subscription rows ∧ row ∈ rows ∧ row.1.ackId = ackId ∧
    deadlineOf event.before subscription = some deadline ∧
    stop = event.input.now + deadline * 1000) ∨
  ∃ seconds, Modifies project event subscription ackId seconds ∧
    stop = event.input.now + seconds * 1000

theorem publishedBy_ok {project : String} {event : PubsubEvent} {messageId : String}
    (taken : event.Taken (perform project)) (published : messageId ∈ publishedBy event) :
    ∃ topicName messages ids, event.input.call = .publish topicName messages ∧
      event.output = .ok (.published ids) ∧ messageId ∈ ids ∧
      publish event.before project topicName messages event.input.now = .ok (ids, event.after) := by
  rcases taken_commit taken with ⟨error, output, _⟩ | ⟨response, output, done⟩
  · rw [publishedBy, output] at published
    exact absurd published List.not_mem_nil
  · rw [publishedBy, output] at published
    have silent {result : PubsubResult Store} (done : noAnswer result = .ok (response, event.after)) :
        False := by
      rw [(noAnswer_ok done).2] at published
      exact absurd published List.not_mem_nil
    unfold execute at done
    cases call : event.input.call with
    | publish topicName messages =>
      simp only [call] at done
      obtain ⟨ids, made, rfl⟩ := answerWith_ok done
      exact ⟨topicName, messages, ids, rfl, output, published, made⟩
    | createSubscription name topicName asked =>
      simp only [call] at done
      obtain ⟨_, _, rfl⟩ := answerWith_ok done
      exact absurd published List.not_mem_nil
    | pull name maxMessages =>
      simp only [call] at done
      obtain ⟨_, _, rfl⟩ := answerWith_ok done
      exact absurd published List.not_mem_nil
    | createTopic name => simp only [call] at done; exact (silent done).elim
    | deleteTopic name => simp only [call] at done; exact (silent done).elim
    | deleteSubscription name => simp only [call] at done; exact (silent done).elim
    | acknowledge name ackIds => simp only [call] at done; exact (silent done).elim
    | modifyAckDeadline name ackIds seconds => simp only [call] at done; exact (silent done).elim

/-- A successful pull, from its answer. -/
theorem Pulls.done {project subscription : String} {event : PubsubEvent}
    {rows : List (Ackable × Message)} (taken : event.Taken (perform project))
    (pulls : Pulls project event subscription rows) : ∃ name maxMessages,
      event.input.call = .pull name maxMessages ∧ fullSub project name = subscription ∧
      pull event.before project name maxMessages event.input.now = .ok (rows, event.after) := by
  obtain ⟨name, maxMessages, call, named, output⟩ := pulls
  have done := taken_ok taken output
  unfold execute at done
  simp only [call] at done
  obtain ⟨received, made, same⟩ := answerWith_ok done
  cases same
  exact ⟨name, maxMessages, call, named, made⟩

/-- A row that a pull returns is one of its subscription. -/
theorem mem_pulled {store : Store} {subscription : String} {now : Int} {limit : Nat}
    {pair : Ackable × Message}
    (member : pair ∈ ((withMessages store (store.ackables.filter fun row =>
      row.isDue subscription now)).insertionSort publishedBefore).take limit) :
    pair.1 ∈ store.ackables ∧ pair.1.subscription = subscription := by
  have sorted := (List.mem_insertionSort publishedBefore).mp (List.mem_of_mem_take member)
  obtain ⟨row, due, joined⟩ := List.mem_flatMap.mp sorted
  obtain ⟨message, _, rfl⟩ := List.mem_map.mp joined
  obtain ⟨stored, here⟩ := List.mem_filter.mp due
  simp only [Ackable.isDue, Bool.and_eq_true, beq_iff_eq] at here
  exact ⟨stored, here.1.1⟩

/-! ### One step -/

/-- **What a step makes of a row.** -/
structure Evolves (project : String) (event : PubsubEvent) (row later : Ackable) : Prop where
  same : SameRow row later
  stays : ¬ Deletes project event row.subscription
  acked : later.acked = true ↔
    row.acked = true ∨ Acknowledges project event row.subscription row.ackId
  leased : row.acked = false → ∀ stop, Leases project event row.subscription row.ackId stop →
    later.leaseUntil = some stop
  unleased : (∀ stop, ¬ Leases project event row.subscription row.ackId stop) →
    later.leaseUntil = row.leaseUntil

/-- **What a step makes of all rows.** -/
structure Effect (project : String) (event : PubsubEvent) : Prop where
  origin : ∀ later ∈ event.after.ackables,
    (∃ row ∈ event.before.ackables, Evolves project event row later) ∨ FansOut event later
  goes : ∀ row ∈ event.before.ackables, Deletes project event row.subscription ∨
    ∃ later ∈ event.after.ackables, Evolves project event row later

namespace Effect

variable {project : String} {event : PubsubEvent}

theorem of_map (change : Ackable → Ackable)
    (ackables : event.after.ackables = event.before.ackables.map change)
    (evolves : ∀ row ∈ event.before.ackables, Evolves project event row (change row)) :
    Effect project event where
  origin later member := by
    rw [ackables] at member
    obtain ⟨row, stored, rfl⟩ := List.mem_map.mp member
    exact Or.inl ⟨row, stored, evolves row stored⟩
  goes row stored := by
    refine Or.inr ⟨change row, ?_, evolves row stored⟩
    rw [ackables]
    exact List.mem_map_of_mem stored

/-- An event that deletes, acknowledges and leases nothing. -/
theorem evolves_quiet (deletes : ∀ subscription, ¬ Deletes project event subscription)
    (acknowledges : ∀ subscription ackId, ¬ Acknowledges project event subscription ackId)
    (leases : ∀ subscription ackId stop, ¬ Leases project event subscription ackId stop)
    (row : Ackable) : Evolves project event row row where
  same := SameRow.refl row
  stays := deletes _
  acked := by simp [acknowledges]
  leased _ stop leased := absurd leased (leases _ _ _)
  unleased _ := rfl

theorem of_same (ackables : event.after.ackables = event.before.ackables)
    (evolves : ∀ row ∈ event.before.ackables, Evolves project event row row) :
    Effect project event :=
  of_map id (ackables.trans (List.map_id _).symm) evolves

end Effect

/-- What a publish adds are the rows that it fans out. -/
theorem fansOut_iff {project : String} {event : PubsubEvent} (uuids : UuidLaws ‹External›)
    (taken : event.Taken (perform project)) (ordered : Ordered event.before) {topicName : String}
    {messages : List OutgoingMessage} (call : event.input.call = .publish topicName messages)
    {ids : List String} (output : event.output = .ok (.published ids)) {row : Ackable} :
    FansOut event row ↔ row ∈ ackableRows event.before
      (messageRows event.before (fullTopic project topicName) messages event.input.now)
      (subscriptionsOf event.before (fullTopic project topicName)) := by
  have done := taken_ok taken output
  unfold execute at done
  simp only [call] at done
  obtain ⟨_, made, same⟩ := answerWith_ok done
  cases same
  obtain ⟨answered, _, rows, ackables, _⟩ := publish_ok made
  have after := ordered.taken uuids taken
  constructor
  · intro fansOut
    have stored := fansOut.stored
    rw [ackables] at stored
    exact (List.mem_append.mp stored).resolve_left fansOut.absent
  · intro new
    obtain ⟨_, ⟨message, member, named⟩, _⟩ := mem_ackableRows new
    refine ⟨?_, fun old => ?_, ?_⟩
    · rw [publishedBy, output, answered, ← named]
      exact List.mem_map_of_mem member
    · have apart := after.ackIds
      rw [ackables, List.pairwise_append] at apart
      exact apart.2.2 row old row new rfl
    · rw [ackables]
      exact List.mem_append_right _ new

/-! ### What each call does to the rows -/

section Calls

variable {project : String} {event : PubsubEvent}

/-- A call of another kind. -/
theorem Effect.evolves_other (deletes : ∀ name, event.input.call ≠ .deleteSubscription name)
    (acknowledges : ∀ name ackIds, event.input.call ≠ .acknowledge name ackIds)
    (pulls : ∀ name limit, event.input.call ≠ .pull name limit)
    (modifies : ∀ name ackIds seconds, event.input.call ≠ .modifyAckDeadline name ackIds seconds)
    (row : Ackable) : Evolves project event row row := by
  refine Effect.evolves_quiet ?_ ?_ ?_ row
  · rintro _ ⟨name, call, _⟩
    exact deletes name call
  · rintro _ _ ⟨name, ackIds, call, _⟩
    exact acknowledges name ackIds call
  · rintro _ _ _ (⟨_, _, _, ⟨name, limit, call, _⟩, _⟩ | ⟨seconds, ⟨name, ackIds, call, _⟩, _⟩)
    · exact pulls name limit call
    · exact modifies name ackIds seconds call

theorem effect_deleteSubscription {name : String}
    (call : event.input.call = .deleteSubscription name) (output : event.output = .ok .done)
    (made : deleteSubscription event.before project name = .ok event.after) :
    Effect project event := by
  obtain ⟨_, _, rest⟩ := bind_ok made
  injection rest with rest
  have ackables : event.after.ackables =
      event.before.ackables.filter fun row => row.subscription != fullSub project name :=
    (congrArg Store.ackables rest).symm
  have evolves (row : Ackable) (other : row.subscription ≠ fullSub project name) :
      Evolves project event row row := by
    refine ⟨SameRow.refl row, ?_, ?_, ?_, fun _ => rfl⟩
    · rintro ⟨_, sameCall, named, _⟩
      rw [call] at sameCall
      cases sameCall
      exact other named.symm
    · simp [Acknowledges, call]
    · simp [Leases, Pulls, Modifies, call]
  refine ⟨fun later member => ?_, fun row stored => ?_⟩
  · rw [ackables] at member
    obtain ⟨stored, other⟩ := List.mem_filter.mp member
    exact Or.inl ⟨later, stored, evolves later (by simpa using other)⟩
  · by_cases here : row.subscription = fullSub project name
    · exact Or.inl ⟨name, call, here.symm, output⟩
    · refine Or.inr ⟨row, ?_, evolves row here⟩
      rw [ackables]
      exact List.mem_filter.mpr ⟨stored, by simpa using here⟩

theorem effect_publish (uuids : UuidLaws ‹External›) (taken : event.Taken (perform project))
    (ordered : Ordered event.before) {topicName : String} {messages : List OutgoingMessage}
    {ids : List String} (call : event.input.call = .publish topicName messages)
    (output : event.output = .ok (.published ids))
    (made : publish event.before project topicName messages event.input.now =
      .ok (ids, event.after)) : Effect project event := by
  obtain ⟨_, _, _, ackables, _⟩ := publish_ok made
  have evolves (row : Ackable) : Evolves project event row row := by
    refine Effect.evolves_other ?_ ?_ ?_ ?_ row
    all_goals
      rw [call]
      exact nofun
  refine ⟨fun later member => ?_, fun row stored => Or.inr ⟨row, ?_, evolves row⟩⟩
  · rw [ackables] at member
    rcases List.mem_append.mp member with old | new
    · exact Or.inl ⟨later, old, evolves later⟩
    · exact Or.inr ((fansOut_iff uuids taken ordered call output).mpr new)
  · rw [ackables]
    exact List.mem_append_left _ stored

/-- A pull leases the rows that it returns. -/
theorem effect_pull (ordered : Ordered event.before) {name : String} {limit : Int}
    {rows : List (Ackable × Message)} (call : event.input.call = .pull name limit)
    (output : event.output = .ok (.received rows))
    (made : pull event.before project name limit event.input.now = .ok (rows, event.after)) :
    Effect project event := by
  obtain ⟨subscription, found, received, after⟩ := pull_ok made
  have pulls : Pulls project event (fullSub project name) rows :=
    ⟨name, limit, call, rfl, output⟩
  have deadline : deadlineOf event.before (fullSub project name) =
      some subscription.ackDeadlineSeconds := by
    rw [deadlineOf, found]
    rfl
  refine Effect.of_map _ (congrArg Store.ackables after) fun row stored => ?_
  have leases (stop : Int) : Leases project event row.subscription row.ackId stop ↔
      row.ackId ∈ rows.map (fun row => row.1.ackId) ∧
        stop = event.input.now + subscription.ackDeadlineSeconds * 1000 := by
    constructor
    · rintro (⟨others, pair, seconds, ⟨_, _, sameCall, named, sameOutput⟩, member, sameId,
          known, stopped⟩ | ⟨seconds, ⟨_, _, sameCall, _⟩, _⟩)
      · rw [output] at sameOutput
        cases sameOutput
        rw [call] at sameCall
        cases sameCall
        rw [← named, deadline] at known
        cases known
        exact ⟨List.mem_map.mpr ⟨pair, member, sameId⟩, stopped⟩
      · rw [call] at sameCall
        cases sameCall
    · rintro ⟨named, stopped⟩
      obtain ⟨pair, member, sameId⟩ := List.mem_map.mp named
      have pulled := member
      rw [received] at pulled
      obtain ⟨due, here⟩ := mem_pulled pulled
      have same : pair.1 = row := ordered.row_of_ackId due stored sameId
      have subscribed : row.subscription = fullSub project name := by rw [← same, here]
      refine Or.inl ⟨rows, pair, subscription.ackDeadlineSeconds, ?_, member, sameId, ?_, stopped⟩
      · rw [subscribed]
        exact pulls
      · rw [subscribed]
        exact deadline
  by_cases named : row.ackId ∈ rows.map fun row => row.1.ackId
  · rw [if_pos named]
    refine ⟨⟨rfl, rfl, rfl⟩, by simp [Deletes, call], by simp [Acknowledges, call],
      fun _ stop leased => ?_, fun unleased => ?_⟩
    · rw [((leases stop).mp leased).2]
    · exact absurd ((leases _).mpr ⟨named, rfl⟩) (unleased _)
  · rw [if_neg named]
    refine ⟨SameRow.refl row, by simp [Deletes, call], by simp [Acknowledges, call],
      fun _ stop leased => ?_, fun _ => rfl⟩
    exact absurd ((leases stop).mp leased).1 named

theorem effect_acknowledge {name : String} {ackIds : List String}
    (call : event.input.call = .acknowledge name ackIds) (output : event.output = .ok .done)
    (made : acknowledge event.before project name ackIds = .ok event.after) :
    Effect project event := by
  refine Effect.of_map _ (congrArg Store.ackables (acknowledge_ok made)) fun row _ => ?_
  have acknowledges : Acknowledges project event row.subscription row.ackId ↔
      row.ackId ∈ ackIds ∧ row.subscription = fullSub project name := by
    constructor
    · rintro ⟨_, _, sameCall, named, member, _⟩
      rw [call] at sameCall
      cases sameCall
      exact ⟨member, named.symm⟩
    · rintro ⟨member, named⟩
      exact ⟨name, ackIds, call, named.symm, member, output⟩
  by_cases here : row.ackId ∈ ackIds ∧ row.subscription = fullSub project name
  · rw [if_pos here]
    exact ⟨⟨rfl, rfl, rfl⟩, by simp [Deletes, call],
      ⟨fun _ => Or.inr (acknowledges.mpr here), fun _ => rfl⟩,
      by simp [Leases, Pulls, Modifies, call], fun _ => rfl⟩
  · rw [if_neg here]
    refine ⟨SameRow.refl row, by simp [Deletes, call], ?_,
      by simp [Leases, Pulls, Modifies, call], fun _ => rfl⟩
    rw [acknowledges]
    exact ⟨Or.inl, fun either => either.resolve_right here⟩

theorem effect_modifyAckDeadline {name : String} {ackIds : List String} {seconds : Int}
    (call : event.input.call = .modifyAckDeadline name ackIds seconds)
    (output : event.output = .ok .done)
    (made : modifyAckDeadline event.before project name ackIds seconds event.input.now =
      .ok event.after) : Effect project event := by
  refine Effect.of_map _ (congrArg Store.ackables (modifyAckDeadline_ok made)) fun row _ => ?_
  have leases (stop : Int) : Leases project event row.subscription row.ackId stop ↔
      (row.ackId ∈ ackIds ∧ row.subscription = fullSub project name) ∧
        stop = event.input.now + seconds * 1000 := by
    constructor
    · rintro (⟨_, _, _, ⟨_, _, sameCall, _⟩, _⟩ | ⟨_, ⟨_, _, sameCall, named, member, _⟩, stopped⟩)
      · rw [call] at sameCall
        cases sameCall
      · rw [call] at sameCall
        cases sameCall
        exact ⟨⟨member, named.symm⟩, stopped⟩
    · rintro ⟨⟨member, named⟩, stopped⟩
      exact Or.inr ⟨seconds, ⟨name, ackIds, call, named.symm, member, output⟩, stopped⟩
  by_cases here : row.ackId ∈ ackIds ∧ row.subscription = fullSub project name ∧
      row.acked = false
  · rw [if_pos here]
    refine ⟨⟨rfl, rfl, rfl⟩, by simp [Deletes, call], by simp [Acknowledges, call],
      fun _ stop leased => ?_, fun unleased => ?_⟩
    · rw [((leases stop).mp leased).2]
    · exact absurd ((leases _).mpr ⟨⟨here.1, here.2.1⟩, rfl⟩) (unleased _)
  · rw [if_neg here]
    refine ⟨SameRow.refl row, by simp [Deletes, call], by simp [Acknowledges, call],
      fun fresh stop leased => ?_, fun _ => rfl⟩
    obtain ⟨⟨member, named⟩, _⟩ := (leases stop).mp leased
    exact absurd ⟨member, named, fresh⟩ here

end Calls

/-- **What a call does to every row.** -/
theorem effect_taken {project : String} {event : PubsubEvent} (uuids : UuidLaws ‹External›)
    (taken : event.Taken (perform project)) (ordered : Ordered event.before) :
    Effect project event := by
  rcases taken_commit taken with ⟨error, output, same⟩ | ⟨response, output, done⟩
  · refine Effect.of_same (congrArg Store.ackables same) fun row _ => ?_
    refine Effect.evolves_quiet ?_ ?_ ?_ row
    · simp [Deletes, output]
    · simp [Acknowledges, output]
    · simp [Leases, Pulls, Modifies, output]
  · have other := @Effect.evolves_other _ project event
    unfold execute at done
    cases call : event.input.call with
    | createTopic name =>
      simp only [call] at done other
      obtain ⟨_, _, rest⟩ := bind_ok (noAnswer_ok done).1
      injection rest with rest
      refine Effect.of_same (congrArg Store.ackables rest).symm fun row _ => other ?_ ?_ ?_ ?_ row
      all_goals exact nofun
    | deleteTopic name =>
      simp only [call] at done other
      obtain ⟨_, _, rest⟩ := bind_ok (noAnswer_ok done).1
      injection rest with rest
      refine Effect.of_same (congrArg Store.ackables rest).symm fun row _ => other ?_ ?_ ?_ ?_ row
      all_goals exact nofun
    | createSubscription name topicName asked =>
      simp only [call] at done other
      obtain ⟨_, made, _⟩ := answerWith_ok done
      obtain ⟨_, _, rest⟩ := bind_ok made
      obtain ⟨_, _, rest⟩ := bind_ok rest
      obtain ⟨_, _, rest⟩ := bind_ok rest
      injection rest with rest
      refine Effect.of_same (congrArg (fun pair => pair.2.ackables) rest).symm
        fun row _ => other ?_ ?_ ?_ ?_ row
      all_goals exact nofun
    | deleteSubscription name =>
      simp only [call] at done
      obtain ⟨made, rfl⟩ := noAnswer_ok done
      exact effect_deleteSubscription call output made
    | publish topicName messages =>
      simp only [call] at done
      obtain ⟨ids, made, rfl⟩ := answerWith_ok done
      exact effect_publish uuids taken ordered call output made
    | pull name limit =>
      simp only [call] at done
      obtain ⟨rows, made, rfl⟩ := answerWith_ok done
      exact effect_pull ordered call output made
    | acknowledge name ackIds =>
      simp only [call] at done
      obtain ⟨made, rfl⟩ := noAnswer_ok done
      exact effect_acknowledge call output made
    | modifyAckDeadline name ackIds seconds =>
      simp only [call] at done
      obtain ⟨made, rfl⟩ := noAnswer_ok done
      exact effect_modifyAckDeadline call output made

/-- **What a publish fans out**: unacked and unleased rows for the subscriptions of its topic. -/
theorem fansOut_ok {project : String} {event : PubsubEvent} (uuids : UuidLaws ‹External›)
    (taken : event.Taken (perform project)) (ordered : Ordered event.before) {row : Ackable}
    (fansOut : FansOut event row) : row.acked = false ∧ row.leaseUntil = none ∧
      ∃ topicName messages, event.input.call = .publish topicName messages ∧
        Attached event.before row.subscription (fullTopic project topicName) := by
  obtain ⟨topicName, messages, ids, call, output, _, _⟩ := publishedBy_ok taken fansOut.published
  obtain ⟨_, _, subscription, acked, lease⟩ :=
    mem_ackableRows ((fansOut_iff uuids taken ordered call output).mp fansOut)
  exact ⟨acked, lease, topicName, messages, call, mem_subscriptionsOf.mp subscription⟩

/-! ### Some steps -/

/-- The lease after some events: the one that the last of them set, or the one before. -/
def LastLease (project : String) (newer : List PubsubEvent) (subscription ackId : String)
    (initial final : Option Int) : Prop :=
  ((∀ event ∈ newer, ∀ stop, ¬ Leases project event subscription ackId stop) ∧ final = initial) ∨
    ∃ earlier lease later stop, newer = earlier ++ lease :: later ∧
      Leases project lease subscription ackId stop ∧
      (∀ event ∈ later, ∀ other, ¬ Leases project event subscription ackId other) ∧
      final = some stop

/-- **What some events make of a row.** -/
structure Since (project : String) (newer : List PubsubEvent) (first row : Ackable) : Prop where
  same : SameRow first row
  stays : ∀ event ∈ newer, ¬ Deletes project event first.subscription
  acked : row.acked = true ↔ first.acked = true ∨
    ∃ event ∈ newer, Acknowledges project event first.subscription first.ackId
  lease : row.acked = false →
    LastLease project newer first.subscription first.ackId first.leaseUntil row.leaseUntil

namespace Since

variable {project : String} {newer : List PubsubEvent} {first row later : Ackable}

theorem refl (project : String) (row : Ackable) : Since project [] row row where
  same := SameRow.refl row
  stays := List.forall_mem_nil _
  acked := by simp
  lease _ := Or.inl ⟨List.forall_mem_nil _, rfl⟩

/-- One more event. -/
theorem next {event : PubsubEvent} (since : Since project newer first row)
    (evolves : Evolves project event row later) :
    Since project (newer ++ [event]) first later := by
  have stays := evolves.stays
  have acked := evolves.acked
  have leased := evolves.leased
  have unleased := evolves.unleased
  rw [since.same.subscription] at stays
  rw [since.same.subscription, since.same.ackId] at acked leased unleased
  refine ⟨⟨evolves.same.ackId.trans since.same.ackId,
    evolves.same.subscription.trans since.same.subscription,
    evolves.same.messageId.trans since.same.messageId⟩, fun other member => ?_, ?_, fun fresh => ?_⟩
  · rcases List.mem_append.mp member with old | new
    · exact since.stays other old
    · rw [List.mem_singleton.mp new]
      exact stays
  · rw [acked, since.acked]
    simp only [List.mem_append, List.mem_singleton, or_and_right, exists_or, exists_eq_left,
      or_assoc]
  · have freshRow : row.acked = false := by
      rw [← Bool.not_eq_true]
      intro already
      rw [acked.mpr (Or.inl already)] at fresh
      cases fresh
    by_cases leases : ∃ stop, Leases project event first.subscription first.ackId stop
    · obtain ⟨stop, leases⟩ := leases
      exact Or.inr ⟨newer, event, [], stop, rfl, leases, List.forall_mem_nil _,
        leased freshRow stop leases⟩
    · push Not at leases
      rw [unleased leases]
      rcases since.lease freshRow with ⟨quiet, same⟩ | ⟨earlier, lease, rest, stop, rfl, leases',
          quiet, same⟩
      · refine Or.inl ⟨fun other member => ?_, same⟩
        rcases List.mem_append.mp member with old | new
        · exact quiet other old
        · rw [List.mem_singleton.mp new]
          exact leases
      · refine Or.inr ⟨earlier, lease, rest ++ [event], stop, by simp, leases',
          fun other member => ?_, same⟩
        rcases List.mem_append.mp member with old | new
        · exact quiet other old
        · rw [List.mem_singleton.mp new]
          exact leases

end Since

section Run

variable {project : String} {start store : Store} {history : List PubsubEvent}

/-- **Where the rows of a run come from.** -/
theorem since_run (uuids : UuidLaws ‹External›) (run : Run (perform project) start history store)
    (ordered : Ordered start) : ∀ row ∈ store.ackables,
      (∃ first ∈ start.ackables, Since project history first row) ∨
      ∃ older publish newer first, history = older ++ publish :: newer ∧ FansOut publish first ∧
        Since project newer first row := by
  induction run with
  | start => exact fun row member => Or.inl ⟨row, member, Since.refl project row⟩
  | @next history event run taken ih =>
    intro later member
    have effect := effect_taken uuids taken (ordered_run uuids run ordered)
    rcases effect.origin later member with ⟨row, stored, evolves⟩ | fansOut
    · rcases ih row stored with ⟨first, memberFirst, since⟩ |
          ⟨older, publish, newer, first, rfl, fansOut, since⟩
      · exact Or.inl ⟨first, memberFirst, since.next evolves⟩
      · exact Or.inr ⟨older, publish, newer ++ [event], first, by simp, fansOut,
          since.next evolves⟩
    · exact Or.inr ⟨history, event, [], later, rfl, fansOut, Since.refl project later⟩

/-- **A row stays until its subscription is deleted.** -/
theorem stays_run (uuids : UuidLaws ‹External›) (run : Run (perform project) start history store)
    (ordered : Ordered start) {first : Ackable} (member : first ∈ start.ackables) :
    (∃ event ∈ history, Deletes project event first.subscription) ∨
      ∃ row ∈ store.ackables, Since project history first row := by
  induction run with
  | start => exact Or.inr ⟨first, member, Since.refl project first⟩
  | @next history event run taken ih =>
    have effect := effect_taken uuids taken (ordered_run uuids run ordered)
    rcases ih with ⟨deleting, memberDeleting, deletes⟩ | ⟨row, stored, since⟩
    · exact Or.inl ⟨deleting, List.mem_append_left _ memberDeleting, deletes⟩
    · rcases effect.goes row stored with deletes | ⟨later, memberLater, evolves⟩
      · rw [since.same.subscription] at deletes
        exact Or.inl ⟨event, by simp, deletes⟩
      · exact Or.inr ⟨later, memberLater, since.next evolves⟩

/-! ### Messages -/

/-- **What a call adds to the messages**: what it published. -/
theorem messages_taken {event : PubsubEvent} (taken : event.Taken (perform project)) :
    ∃ new, event.after.messages = event.before.messages ++ new ∧
      new.map Message.messageId = publishedBy event ∧ ∀ message ∈ new, Publishes project event message := by
  have none_new (same : event.after.messages = event.before.messages)
      (silent : publishedBy event = []) : ∃ new,
        event.after.messages = event.before.messages ++ new ∧
        new.map Message.messageId = publishedBy event ∧
        ∀ message ∈ new, Publishes project event message :=
    ⟨[], by rw [same, List.append_nil], silent.symm, nofun⟩
  rcases taken_commit taken with ⟨error, output, same⟩ | ⟨response, output, done⟩
  · exact none_new (congrArg Store.messages same) (by rw [publishedBy, output])
  · have silent {result : PubsubResult Store}
        (done : noAnswer result = .ok (response, event.after)) : publishedBy event = [] := by
      rw [publishedBy, output, (noAnswer_ok done).2]
    unfold execute at done
    cases call : event.input.call with
    | createTopic name =>
      simp only [call] at done
      obtain ⟨_, _, rest⟩ := bind_ok (noAnswer_ok done).1
      injection rest with rest
      exact none_new (congrArg Store.messages rest).symm (silent done)
    | deleteTopic name =>
      simp only [call] at done
      obtain ⟨_, _, rest⟩ := bind_ok (noAnswer_ok done).1
      injection rest with rest
      exact none_new (congrArg Store.messages rest).symm (silent done)
    | createSubscription name topicName asked =>
      simp only [call] at done
      obtain ⟨_, made, rfl⟩ := answerWith_ok done
      obtain ⟨_, _, rest⟩ := bind_ok made
      obtain ⟨_, _, rest⟩ := bind_ok rest
      obtain ⟨_, _, rest⟩ := bind_ok rest
      injection rest with rest
      exact none_new (congrArg (fun pair => pair.2.messages) rest).symm
        (by rw [publishedBy, output])
    | deleteSubscription name =>
      simp only [call] at done
      obtain ⟨_, _, rest⟩ := bind_ok (noAnswer_ok done).1
      injection rest with rest
      exact none_new (congrArg Store.messages rest).symm (silent done)
    | publish topicName messages =>
      simp only [call] at done
      obtain ⟨ids, made, rfl⟩ := answerWith_ok done
      obtain ⟨answered, _, rows, _⟩ := publish_ok made
      refine ⟨_, rows, ?_, fun message member => ?_⟩
      · rw [publishedBy, output, answered]
      · obtain ⟨index, sent, found, place, _, _, _, topic, data, attributes⟩ :=
          mem_messageRows member
        refine ⟨topicName, messages, ids, index, sent, call, output, found, ?_, topic, data,
          attributes⟩
        rw [answered, List.getElem?_map, place]
        rfl
    | pull name limit =>
      simp only [call] at done
      obtain ⟨rows, made, rfl⟩ := answerWith_ok done
      obtain ⟨_, _, _, after⟩ := pull_ok made
      exact none_new ((congrArg Store.messages after).trans rfl) (by rw [publishedBy, output])
    | acknowledge name ackIds =>
      simp only [call] at done
      have after := acknowledge_ok (noAnswer_ok done).1
      exact none_new ((congrArg Store.messages after).trans rfl) (silent done)
    | modifyAckDeadline name ackIds seconds =>
      simp only [call] at done
      have after := modifyAckDeadline_ok (noAnswer_ok done).1
      exact none_new ((congrArg Store.messages after).trans rfl) (silent done)

/-- **The messages of a run**: those published, in publish order. -/
theorem messages_run (run : Run (perform project) start history store) :
    ∃ new, store.messages = start.messages ++ new ∧
      new.map Message.messageId = publishedIds history ∧
      ∀ message ∈ new, ∃ publish ∈ history, Publishes project publish message := by
  induction run with
  | start => exact ⟨[], (List.append_nil _).symm, rfl, nofun⟩
  | @next history event run taken ih =>
    obtain ⟨new, messages, ids, published⟩ := ih
    obtain ⟨added, after, addedIds, publishedHere⟩ := messages_taken taken
    refine ⟨new ++ added, ?_, ?_, fun message member => ?_⟩
    · rw [after, messages, List.append_assoc]
    · rw [List.map_append, ids, addedIds, publishedIds, publishedIds, List.flatMap_append,
        List.flatMap_singleton]
    · rcases List.mem_append.mp member with old | here
      · obtain ⟨publish, memberPublish, publishes⟩ := published message old
        exact ⟨publish, List.mem_append_left _ memberPublish, publishes⟩
      · exact ⟨event, by simp, publishedHere message here⟩

/-- A message id is not published again. -/
theorem not_republished (uuids : UuidLaws ‹External›)
    (run : Run (perform project) start history store) (ordered : Ordered start)
    {message : Message} (member : message ∈ start.messages) :
    ∀ publish ∈ history, message.messageId ∉ publishedBy publish := by
  intro publish memberPublish published
  obtain ⟨past, rest, rfl⟩ := List.append_of_mem memberPublish
  obtain ⟨runPast, taken, _⟩ := run.around
  obtain ⟨new, messages, _, _⟩ := messages_run runPast
  obtain ⟨added, after, addedIds, _⟩ := messages_taken taken
  have apart := ((ordered_run uuids runPast ordered).taken uuids taken).messageIds
  rw [after, List.pairwise_append] at apart
  rw [← addedIds] at published
  obtain ⟨other, memberOther, same⟩ := List.mem_map.mp published
  refine apart.2.2 message ?_ other memberOther same.symm
  rw [messages]
  exact List.mem_append_left _ member

/-- Later rows of a message that is stored come from earlier rows. -/
theorem since_stored (uuids : UuidLaws ‹External›)
    (run : Run (perform project) start history store) (ordered : Ordered start) {row : Ackable}
    (member : row ∈ store.ackables) {message : Message} (stored : message ∈ start.messages)
    (named : message.messageId = row.messageId) :
    ∃ first ∈ start.ackables, Since project history first row := by
  rcases since_run uuids run ordered row member with found |
      ⟨older, publish, newer, first, rfl, fansOut, since⟩
  · exact found
  · refine absurd fansOut.published ?_
    rw [← since.same.messageId, ← named]
    exact not_republished uuids run ordered stored publish (by simp)

end Run

end External

end CloudTwin.Pubsub
