/-
**Which subscriptions a topic has.**

A subscription names its topic, and nothing else links the two. So a topic has the subscriptions that
were created under its name and not deleted since, also those of an earlier topic of that name.

* `subscriptions_taken` — what a call does to the subscriptions.
* `attached_run` — the subscriptions of a run.
* `topic_attachment` — the subscriptions of a topic, and what is delivered to them.
-/

import CloudTwin.Pubsub.History

namespace CloudTwin.Pubsub

open Lib

set_option linter.unusedSectionVars false

section External

variable [External]

/-- The event created the subscription. -/
def Creates (project : String) (event : PubsubEvent) (row : Subscription) : Prop :=
  ∃ name topicName asked, event.input.call = .createSubscription name topicName asked ∧
    row.name = fullSub project name ∧ row.topic = fullTopic project topicName ∧
    event.output = .ok (.subscription row)

/-- **What a step does to the subscriptions.** -/
structure Attaches (project : String) (event : PubsubEvent) : Prop where
  origin : ∀ row ∈ event.after.subscriptions,
    row ∈ event.before.subscriptions ∨ Creates project event row
  kept : ∀ row ∈ event.before.subscriptions,
    row ∈ event.after.subscriptions ∨ Deletes project event row.name
  created : ∀ row, Creates project event row → row ∈ event.after.subscriptions ∧
    ∀ other ∈ event.before.subscriptions, other.name ≠ row.name
  deleted : ∀ name, Deletes project event name → ∀ row ∈ event.after.subscriptions,
    row.name ≠ name

theorem subscriptions_taken {project : String} {event : PubsubEvent}
    (taken : event.Taken (perform project)) : Attaches project event := by
  have quiet (same : event.after.subscriptions = event.before.subscriptions)
      (creates : ∀ row, ¬ Creates project event row)
      (deletes : ∀ name, ¬ Deletes project event name) : Attaches project event := by
    refine ⟨fun row member => ?_, fun row member => ?_, fun row here => absurd here (creates row),
      fun name here => absurd here (deletes name)⟩
    · rw [same] at member
      exact Or.inl member
    · rw [same]
      exact Or.inl member
  rcases taken_commit taken with ⟨error, output, same⟩ | ⟨response, output, done⟩
  · exact quiet (congrArg Store.subscriptions same) (by simp [Creates, output])
      (by simp [Deletes, output])
  · unfold execute at done
    cases call : event.input.call with
    | createTopic name =>
      simp only [call] at done
      obtain ⟨_, _, rest⟩ := bind_ok (noAnswer_ok done).1
      injection rest with rest
      exact quiet (congrArg Store.subscriptions rest).symm (by simp [Creates, call])
        (by simp [Deletes, call])
    | deleteTopic name =>
      simp only [call] at done
      obtain ⟨_, _, rest⟩ := bind_ok (noAnswer_ok done).1
      injection rest with rest
      exact quiet (congrArg Store.subscriptions rest).symm (by simp [Creates, call])
        (by simp [Deletes, call])
    | createSubscription name topicName asked =>
      simp only [call] at done
      obtain ⟨row, made, rfl⟩ := answerWith_ok done
      obtain ⟨_, _, rest⟩ := bind_ok made
      obtain ⟨_, _, rest⟩ := bind_ok rest
      obtain ⟨_, absent, rest⟩ := bind_ok rest
      injection rest with rest
      obtain ⟨rowEq, after⟩ := Prod.mk.inj rest
      have subscriptions : event.after.subscriptions = event.before.subscriptions ++ [row] := by
        rw [← after, rowEq]
      rw [rejectIf_ok, Option.not_isSome_iff_eq_none, findSubscription, List.find?_eq_none] at absent
      refine ⟨fun other member => ?_, fun other member => ?_, fun other creates => ?_, ?_⟩
      · rw [subscriptions] at member
        rcases List.mem_append.mp member with old | new
        · exact Or.inl old
        · rw [List.mem_singleton.mp new]
          refine Or.inr ⟨name, topicName, asked, call, ?_, ?_, output⟩
          · rw [← rowEq]
          · rw [← rowEq]
      · rw [subscriptions]
        exact Or.inl (List.mem_append_left _ member)
      · obtain ⟨_, _, _, _, _, _, sameOutput⟩ := creates
        rw [output] at sameOutput
        cases sameOutput
        rw [subscriptions]
        refine ⟨by simp, fun earlier member same => ?_⟩
        refine absent earlier member ?_
        rw [beq_iff_eq, same, ← rowEq]
      · rintro _ ⟨_, sameCall, _⟩
        rw [call] at sameCall
        cases sameCall
    | deleteSubscription name =>
      simp only [call] at done
      obtain ⟨made, answer⟩ := noAnswer_ok done
      obtain ⟨_, _, rest⟩ := bind_ok made
      injection rest with rest
      have subscriptions : event.after.subscriptions =
          event.before.subscriptions.filter fun row => row.name != fullSub project name :=
        (congrArg Store.subscriptions rest).symm
      refine ⟨fun row member => ?_, fun row member => ?_, ?_, ?_⟩
      · rw [subscriptions] at member
        exact Or.inl (List.mem_filter.mp member).1
      · by_cases here : row.name = fullSub project name
        · refine Or.inr ⟨name, call, here.symm, ?_⟩
          rw [output, answer]
        · rw [subscriptions]
          exact Or.inl (List.mem_filter.mpr ⟨member, by simpa using here⟩)
      · simp [Creates, call]
      · rintro _ ⟨_, sameCall, rfl, _⟩ row member
        rw [call] at sameCall
        cases sameCall
        rw [subscriptions] at member
        simpa using (List.mem_filter.mp member).2
    | publish topicName messages =>
      simp only [call] at done
      obtain ⟨ids, made, rfl⟩ := answerWith_ok done
      exact quiet (publish_ok made).2.1 (by simp [Creates, call]) (by simp [Deletes, call])
    | pull name limit =>
      simp only [call] at done
      obtain ⟨rows, made, rfl⟩ := answerWith_ok done
      obtain ⟨_, _, _, after⟩ := pull_ok made
      exact quiet ((congrArg Store.subscriptions after).trans rfl) (by simp [Creates, call])
        (by simp [Deletes, call])
    | acknowledge name ackIds =>
      simp only [call] at done
      have after := acknowledge_ok (noAnswer_ok done).1
      exact quiet ((congrArg Store.subscriptions after).trans rfl) (by simp [Creates, call])
        (by simp [Deletes, call])
    | modifyAckDeadline name ackIds seconds =>
      simp only [call] at done
      have after := modifyAckDeadline_ok (noAnswer_ok done).1
      exact quiet ((congrArg Store.subscriptions after).trans rfl) (by simp [Creates, call])
        (by simp [Deletes, call])

section Run

variable {project : String} {start store : Store} {history : List PubsubEvent}

/-- A subscription stays until it is deleted. -/
theorem subscription_stays (run : Run (perform project) start history store) {row : Subscription}
    (member : row ∈ start.subscriptions)
    (kept : ∀ event ∈ history, ¬ Deletes project event row.name) : row ∈ store.subscriptions :=
  @Run.invariant_along _ _ _ _ _ _ _ (fun store => row ∈ store.subscriptions) run member
    fun event memberEvent taken before =>
      ((subscriptions_taken taken).kept row before).resolve_right (kept event memberEvent)

/-- The subscription was created, and not deleted since. -/
def CreatedIn (project : String) (history : List PubsubEvent) (row : Subscription) : Prop :=
  ∃ past event rest, history = past ++ event :: rest ∧ Creates project event row ∧
    ∀ later ∈ rest, ¬ Deletes project later row.name

/-- **The subscriptions of a run**: those created and not deleted since. -/
theorem attached_run (run : Run (perform project) Store.empty history store) :
    ∀ row, row ∈ store.subscriptions ↔ CreatedIn project history row := by
  intro row
  constructor
  · intro member
    induction run with
    | start => exact absurd member List.not_mem_nil
    | @next history event run taken ih =>
      have attaches := subscriptions_taken taken
      rcases attaches.origin row member with old | creates
      · obtain ⟨past, creating, rest, rfl, creates, kept⟩ := ih old
        refine ⟨past, creating, rest ++ [event], by simp, creates, fun later memberLater => ?_⟩
        rcases List.mem_append.mp memberLater with earlier | last
        · exact kept later earlier
        · rw [List.mem_singleton.mp last]
          exact fun deletes => attaches.deleted _ deletes row member rfl
      · exact ⟨history, event, [], rfl, creates, nofun⟩
  · rintro ⟨past, event, rest, rfl, creates, kept⟩
    obtain ⟨_, taken, runRest⟩ := run.around
    exact subscription_stays runRest ((subscriptions_taken taken).created row creates).1 kept

/-- **Where a message that is pulled comes from.** -/
theorem pulled_origin (uuids : UuidLaws ‹External›) {past rest : List PubsubEvent}
    {event : PubsubEvent} (run : Run (perform project) Store.empty (past ++ event :: rest) store)
    {subscription : String} {rows : List (Ackable × Message)}
    (pulls : Pulls project event subscription rows) {pair : Ackable × Message}
    (member : pair ∈ rows) : pair.1 ∈ event.before.ackables ∧
      pair.1.isDue subscription event.input.now = true ∧ pair.2 ∈ event.before.messages ∧
      pair.2.messageId = pair.1.messageId ∧
      ∃ older publish newer first, past = older ++ publish :: newer ∧ FansOut publish first ∧
        Since project newer first pair.1 := by
  obtain ⟨runPast, taken, _⟩ := run.around
  obtain ⟨name, limit, _, rfl, done⟩ := pulls.done taken
  obtain ⟨_, _, received, _⟩ := pull_ok done
  rw [received] at member
  have sorted := (List.mem_insertionSort publishedBefore).mp (List.mem_of_mem_take member)
  obtain ⟨row, due, joined⟩ := List.mem_flatMap.mp sorted
  obtain ⟨message, found, rfl⟩ := List.mem_map.mp joined
  obtain ⟨stored, here⟩ := List.mem_filter.mp due
  obtain ⟨memberMessage, named⟩ := List.mem_filter.mp found
  refine ⟨stored, here, memberMessage, by simpa using named, ?_⟩
  rcases since_run uuids runPast Ordered.empty row stored with ⟨first, memberFirst, _⟩ | found
  · exact absurd memberFirst List.not_mem_nil
  · exact found

/-- **The subscriptions of a topic**: those created under its name and not deleted since; and what
is delivered to a subscription was published to the topic of that name while it was there. -/
structure Attachment (project : String) (history : List PubsubEvent) (store : Store) : Prop where
  subscriptions : ∀ topicName names, topicSubscriptions store project topicName = .ok names →
    names.Nodup ∧ ∀ name, name ∈ names ↔
      ∃ row, CreatedIn project history row ∧ row.name = name ∧
        row.topic = fullTopic project topicName
  delivered : ∀ past event rest subscription rows, history = past ++ event :: rest →
    Pulls project event subscription rows → ∀ pair ∈ rows,
    ∃ older publish newer topicName messages row, past = older ++ publish :: newer ∧
      publish.input.call = .publish topicName messages ∧
      pair.2.messageId ∈ publishedBy publish ∧ CreatedIn project older row ∧
      row.name = subscription ∧ row.topic = fullTopic project topicName ∧
      ∀ later ∈ newer, ¬ Deletes project later subscription

theorem topic_attachment (uuids : UuidLaws ‹External›)
    (run : Run (perform project) Store.empty history store) :
    Attachment project history store where
  subscriptions topicName names done := by
    obtain ⟨_, _, rest⟩ := bind_ok done
    cases rest
    have ordered := ordered_run uuids run Ordered.empty
    refine ⟨?_, fun name => ?_⟩
    · rw [(List.mergeSort_perm _ _).nodup_iff]
      exact List.pairwise_map.mpr (ordered.names.filter _)
    · rw [List.mem_mergeSort, mem_subscriptionsOf]
      constructor
      · rintro ⟨row, member, named, topic⟩
        exact ⟨row, (attached_run run row).mp member, named, topic⟩
      · rintro ⟨row, created, named, topic⟩
        exact ⟨row, (attached_run run row).mpr created, named, topic⟩
  delivered past event rest subscription rows split pulls pair member := by
    rw [split] at run
    obtain ⟨runPast, _, _⟩ := run.around
    obtain ⟨stored, due, _, named, older, publish, newer, first, rfl, fansOut, since⟩ :=
      pulled_origin uuids run pulls member
    obtain ⟨runOlder, taken, _⟩ := runPast.around
    obtain ⟨_, _, topicName, messages, call, row, memberRow, rowNamed, topic⟩ :=
      fansOut_ok uuids taken (ordered_run uuids runOlder Ordered.empty) fansOut
    simp only [Ackable.isDue, Bool.and_eq_true, beq_iff_eq] at due
    have here : first.subscription = subscription := since.same.subscription.symm.trans due.1.1
    refine ⟨older, publish, newer, topicName, messages, row, rfl, call, ?_,
      (attached_run runOlder row).mp memberRow, rowNamed.trans here, topic, ?_⟩
    · rw [named, since.same.messageId]
      exact fansOut.published
    · rw [← here]
      exact since.stays

end Run

end External

/-! ### A run -/

section Sample

@[reducible]
def sampleExternal : External := External.sample

attribute [local instance] sampleExternal

/-- A topic is deleted and created again; its subscription was created before. -/
def recreatedInputs : List Input :=
  [⟨0, .createTopic "t"⟩, ⟨1, .createSubscription "s" "t" none⟩, ⟨2, .deleteTopic "t"⟩,
    ⟨3, .createTopic "t"⟩, ⟨4, .publish "t" [⟨"aGk=", .obj []⟩]⟩, ⟨5, .pull "s" 1⟩]

theorem topic_attachment_sample :
    Attachment "p" (Run.trace (perform "p") Store.empty recreatedInputs)
      (Run.final (perform "p") Store.empty recreatedInputs) :=
  topic_attachment sample_laws (Run.of_trace (perform "p") recreatedInputs Store.empty)

/-- The new topic has the subscription of the old one, and a message published to it is delivered
there. -/
theorem recreated_topic_attached :
    topicSubscriptions (Run.final (perform "p") Store.empty (recreatedInputs.take 4)) "p" "t" =
        .ok ["projects/p/subscriptions/s"] ∧
      ∃ past event rows pair, Run.trace (perform "p") Store.empty recreatedInputs =
          past ++ [event] ∧ Pulls "p" event "projects/p/subscriptions/s" rows ∧ pair ∈ rows ∧
        pair.2.topic = "projects/p/topics/t" ∧ pair.2.data = "aGk=" := by
  refine ⟨by decide +kernel, (Run.trace (perform "p") Store.empty recreatedInputs).take 5, _,
    [(⟨External.sample.uuid 1, "projects/p/subscriptions/s", External.sample.uuid 0, false, none⟩,
      ⟨1, External.sample.uuid 0, "projects/p/topics/t", "aGk=", "null", 4⟩)], _, rfl,
    ⟨"s", 1, rfl, ?_, ?_⟩, List.mem_singleton_self _, rfl, rfl⟩
  · decide
  · rfl

end Sample

end CloudTwin.Pubsub
