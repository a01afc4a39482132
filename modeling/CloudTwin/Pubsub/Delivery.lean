/-
**What a pull returns.**

What is returnable from a subscription is told by the history alone: the messages fanned out to it,
not acknowledged since, and whose last lease has ended. A pull returns the oldest of them.

* `Returnable` — the messages that a subscription can return, by the history.
* `returnable_iff` — they are the messages of the rows that are due.
* `pulled_oldest` — a pull returns the oldest of them, in publish order.
* `pubsub_delivery` — all that holds of every run.
-/

import CloudTwin.Lib.Table
import CloudTwin.Pubsub.Attachment
import Mathlib.Data.List.Sort

namespace CloudTwin.Pubsub

open Lib

set_option linter.unusedSectionVars false

section External

variable [External]

/-! ### Leases -/

/-- An event sets one lease end. -/
theorem Leases.unique {project subscription ackId : String} {event : PubsubEvent} {one two : Int}
    (first : Leases project event subscription ackId one)
    (second : Leases project event subscription ackId two) : one = two := by
  rcases first with ⟨_, _, _, ⟨_, _, call, _⟩, _, _, known, rfl⟩ | ⟨_, ⟨_, _, call, _⟩, rfl⟩
  · rcases second with ⟨_, _, _, _, _, _, known', rfl⟩ | ⟨_, ⟨_, _, call', _⟩, _⟩
    · rw [known] at known'
      rw [Option.some.inj known']
    · rw [call] at call'
      cases call'
  · rcases second with ⟨_, _, _, ⟨_, _, call', _⟩, _⟩ | ⟨_, ⟨_, _, call', _⟩, rfl⟩
    · rw [call] at call'
      cases call'
    · rw [call] at call'
      cases call'
      rfl

theorem LastLease.unique {project subscription ackId : String} {newer : List PubsubEvent}
    {initial one two : Option Int} (first : LastLease project newer subscription ackId initial one)
    (second : LastLease project newer subscription ackId initial two) : one = two := by
  rcases first with ⟨quiet, rfl⟩ | ⟨earlier, lease, later, stop, rfl, leases, quiet, rfl⟩
  · rcases second with ⟨_, rfl⟩ | ⟨earlier, lease, later, stop, rfl, leases, _⟩
    · rfl
    · exact absurd leases (quiet lease (by simp) stop)
  · rcases second with ⟨quiet', rfl⟩ | ⟨earlier', lease', later', stop', same, leases', quiet', rfl⟩
    · exact absurd leases (quiet' lease (by simp) stop)
    · rcases List.append_eq_append_iff.mp same with ⟨middle, _, rest⟩ | ⟨middle, _, rest⟩
      · cases middle with
        | nil =>
          obtain ⟨rfl, _⟩ := List.cons.inj rest
          rw [leases.unique leases']
        | cons head tail =>
          obtain ⟨rfl, rfl⟩ := List.cons.inj rest
          exact absurd leases' (quiet lease' (by simp) stop')
      · cases middle with
        | nil =>
          obtain ⟨rfl, _⟩ := List.cons.inj rest
          rw [leases.unique leases']
        | cons head tail =>
          obtain ⟨rfl, rfl⟩ := List.cons.inj rest
          exact absurd leases (quiet' lease (by simp) stop)

/-! ### What is returnable -/

/-- **The subscription can return the message**: it was fanned out to it, is not acknowledged, and
its last lease has ended. -/
def Returnable (project : String) (past : List PubsubEvent) (subscription : String) (now : Int)
    (messageId : String) : Prop :=
  ∃ older publish newer row lease, past = older ++ publish :: newer ∧ FansOut publish row ∧
    row.subscription = subscription ∧ row.messageId = messageId ∧
    (∀ event ∈ newer, ¬ Deletes project event subscription) ∧
    (∀ event ∈ newer, ¬ Acknowledges project event subscription row.ackId) ∧
    LastLease project newer subscription row.ackId none lease ∧ lease.all (· ≤ now) = true

/-- A row of the message is due. -/
def isDueOf (store : Store) (subscription : String) (now : Int) (messageId : String) : Bool :=
  store.ackables.any fun row => row.isDue subscription now && row.messageId == messageId

theorem isDueOf_iff {store : Store} {subscription messageId : String} {now : Int} :
    isDueOf store subscription now messageId = true ↔
      ∃ row ∈ store.ackables, row.isDue subscription now = true ∧ row.messageId = messageId := by
  simp [isDueOf]

theorem isDue_iff {row : Ackable} {subscription : String} {now : Int} :
    row.isDue subscription now = true ↔ row.subscription = subscription ∧ row.acked = false ∧
      row.leaseUntil.all (· ≤ now) = true := by
  simp [Ackable.isDue, and_assoc]

/-- **The history tells what is due.** -/
theorem returnable_iff {project : String} {past : List PubsubEvent} {store : Store}
    (uuids : UuidLaws ‹External›) (run : Run (perform project) Store.empty past store)
    (subscription : String) (now : Int) (messageId : String) :
    isDueOf store subscription now messageId = true ↔
      Returnable project past subscription now messageId := by
  rw [isDueOf_iff]
  constructor
  · rintro ⟨row, stored, due, rfl⟩
    obtain ⟨rfl, fresh, ended⟩ := isDue_iff.mp due
    rcases since_run uuids run Ordered.empty row stored with ⟨first, memberFirst, _⟩ |
        ⟨older, publish, newer, first, rfl, fansOut, since⟩
    · exact absurd memberFirst List.not_mem_nil
    · obtain ⟨runOlder, taken, _⟩ := run.around
      obtain ⟨_, unleased, _⟩ := fansOut_ok uuids taken (ordered_run uuids runOlder Ordered.empty)
        fansOut
      have lease := since.lease fresh
      have acked := since.acked
      have stays := since.stays
      rw [unleased, ← since.same.subscription] at lease
      rw [← since.same.subscription] at acked stays
      refine ⟨older, publish, newer, first, row.leaseUntil, rfl, fansOut,
        since.same.subscription.symm, since.same.messageId.symm, stays,
        fun event member acknowledges => ?_, lease, ended⟩
      rw [acked.mpr (Or.inr ⟨event, member, acknowledges⟩)] at fresh
      cases fresh
  · rintro ⟨older, publish, newer, first, lease, rfl, fansOut, rfl, rfl, stays, unacked, last, ended⟩
    obtain ⟨runOlder, taken, runNewer⟩ := run.around
    have ordered := ordered_run uuids runOlder Ordered.empty
    obtain ⟨fresh, unleased, _⟩ := fansOut_ok uuids taken ordered fansOut
    rcases stays_run uuids runNewer (ordered.taken uuids taken) fansOut.stored with
        ⟨event, member, deletes⟩ | ⟨row, stored, since⟩
    · exact absurd deletes (stays event member)
    · have freshRow : row.acked = false := by
        rw [← Bool.not_eq_true, since.acked, fresh]
        rintro (already | ⟨event, member, acknowledges⟩)
        · cases already
        · exact unacked event member acknowledges
      have same := since.lease freshRow
      rw [unleased] at same
      refine ⟨row, stored, isDue_iff.mpr ⟨since.same.subscription, freshRow, ?_⟩,
        since.same.messageId⟩
      rw [same.unique last]
      exact ended

/-! ### The order of a pull -/

theorem publishedBefore_trans : IsTrans (Ackable × Message) publishedBefore :=
  ⟨fun _ _ _ first second => Nat.le_trans first second⟩

theorem publishedBefore_total : Std.Total (α := Ackable × Message) publishedBefore :=
  ⟨fun first second => Nat.le_total first.2.id second.2.id⟩

theorem Ordered.nodup_messages {store : Store} (ordered : Ordered store) : store.messages.Nodup :=
  ordered.ids.imp fun {first second} less same => by
    rw [same] at less
    exact Nat.lt_irrefl _ less

/-- A message number is that of one message. -/
theorem Ordered.message_of_id {store : Store} (ordered : Ordered store) {first second : Message}
    (memberFirst : first ∈ store.messages) (memberSecond : second ∈ store.messages)
    (same : first.id = second.id) : first = second := by
  by_contra different
  have symmetric : Std.Symm fun first second : Message => first.id ≠ second.id :=
    ⟨fun _ _ apart => apart.symm⟩
  exact (ordered.ids.imp fun {_ _} less => Nat.ne_of_lt less).forall memberFirst memberSecond
    different same

/-- **The rows that are due, with their messages, in publish order.** -/
theorem sorted_due {store : Store} (ordered : Ordered store) (subscription : String) (now : Int) :
    ((withMessages store (store.ackables.filter fun row =>
        row.isDue subscription now)).insertionSort publishedBefore).map Prod.snd =
      store.messages.filter fun message =>
        isDueOf store subscription now message.messageId := by
  have total := publishedBefore_total
  have transitive := publishedBefore_trans
  have snd : (withMessages store (store.ackables.filter fun row =>
      row.isDue subscription now)).map Prod.snd =
        (store.ackables.filter fun row => row.isDue subscription now).flatMap fun row =>
          store.messages.filter fun message => message.messageId == row.messageId := by
    unfold withMessages
    rw [List.map_flatMap]
    simp only [List.map_map, Function.comp_def, List.map_id']
  have nodup : ((withMessages store (store.ackables.filter fun row =>
      row.isDue subscription now)).map Prod.snd).Nodup := by
    rw [snd, List.nodup_flatMap]
    refine ⟨fun row _ => ordered.nodup_messages.filter _, ?_⟩
    refine (ordered.apart.filter _).imp_of_mem fun {first second} memberFirst memberSecond apart => ?_
    intro message inFirst inSecond
    obtain ⟨_, dueFirst⟩ := List.mem_filter.mp memberFirst
    obtain ⟨_, dueSecond⟩ := List.mem_filter.mp memberSecond
    have namedFirst := beq_iff_eq.mp (List.mem_filter.mp inFirst).2
    have namedSecond := beq_iff_eq.mp (List.mem_filter.mp inSecond).2
    exact apart ⟨(isDue_iff.mp dueFirst).1.trans (isDue_iff.mp dueSecond).1.symm,
      namedFirst.symm.trans namedSecond⟩
  have members : ∀ message, message ∈ (withMessages store (store.ackables.filter fun row =>
      row.isDue subscription now)).map Prod.snd ↔ message ∈ store.messages.filter fun message =>
        isDueOf store subscription now message.messageId := by
    intro message
    rw [snd, List.mem_flatMap, List.mem_filter, isDueOf_iff]
    constructor
    · rintro ⟨row, memberRow, joined⟩
      obtain ⟨stored, due⟩ := List.mem_filter.mp memberRow
      obtain ⟨memberMessage, named⟩ := List.mem_filter.mp joined
      exact ⟨memberMessage, row, stored, due, (beq_iff_eq.mp named).symm⟩
    · rintro ⟨memberMessage, row, stored, due, named⟩
      exact ⟨row, List.mem_filter.mpr ⟨stored, due⟩,
        List.mem_filter.mpr ⟨memberMessage, beq_iff_eq.mpr named.symm⟩⟩
  have permuted := ((List.perm_insertionSort publishedBefore _).map Prod.snd).trans
    ((List.perm_ext_iff_of_nodup nodup (ordered.nodup_messages.filter _)).mpr members)
  have sorted : (((withMessages store (store.ackables.filter fun row =>
      row.isDue subscription now)).insertionSort publishedBefore).map Prod.snd).Pairwise
        fun first second => first.id ≤ second.id := by
    rw [List.pairwise_map]
    exact List.pairwise_insertionSort publishedBefore _
  have numbered : (store.messages.filter fun message =>
      isDueOf store subscription now message.messageId).Pairwise
        fun first second => first.id ≤ second.id :=
    (ordered.ids.imp fun {_ _} less => Nat.le_of_lt less).filter _
  refine List.Perm.eq_of_pairwise (fun first second memberFirst memberSecond before after => ?_)
    sorted numbered permuted
  refine ordered.message_of_id ?_ (List.mem_filter.mp memberSecond).1 (Nat.le_antisymm before after)
  exact (List.mem_filter.mp (permuted.mem_iff.mp memberFirst)).1

open Classical in
/-- The ids of the messages that the subscription can return, in publish order. -/
noncomputable def returnableIds (project : String) (past : List PubsubEvent)
    (subscription : String) (now : Int) : List String :=
  (publishedIds past).filter fun messageId => Returnable project past subscription now messageId

/-- **A pull returns the oldest messages that are returnable**, in publish order. -/
theorem pulled_oldest {project : String} {past rest : List PubsubEvent} {event : PubsubEvent}
    {store : Store} (uuids : UuidLaws ‹External›)
    (run : Run (perform project) Store.empty (past ++ event :: rest) store) {name : String}
    {limit : Int} {rows : List (Ackable × Message)} (call : event.input.call = .pull name limit)
    (output : event.output = .ok (.received rows)) :
    rows.map (fun pair => pair.2.messageId) =
      (returnableIds project past (fullSub project name) event.input.now).take
        (pullLimit limit) := by
  classical
  obtain ⟨runPast, taken, _⟩ := run.around
  have done := taken_ok taken output
  unfold execute at done
  simp only [call] at done
  obtain ⟨_, made, same⟩ := answerWith_ok done
  cases same
  obtain ⟨_, _, received, _⟩ := pull_ok made
  obtain ⟨new, messages, ids, _⟩ := messages_run runPast
  have published : event.before.messages.map Message.messageId = publishedIds past := by
    rw [messages, ← ids]
    rfl
  have sorted := sorted_due (ordered_run uuids runPast Ordered.empty) (fullSub project name)
    event.input.now
  calc rows.map (fun pair => pair.2.messageId)
      = (rows.map Prod.snd).map Message.messageId := (List.map_map).symm
    _ = ((event.before.messages.filter fun message => isDueOf event.before (fullSub project name)
          event.input.now message.messageId).map Message.messageId).take (pullLimit limit) := by
        rw [received, List.map_take, List.map_take, sorted]
    _ = ((publishedIds past).filter fun messageId => isDueOf event.before (fullSub project name)
          event.input.now messageId).take (pullLimit limit) := by
        rw [← published, List.filter_map]
        rfl
    _ = (returnableIds project past (fullSub project name) event.input.now).take
          (pullLimit limit) := by
        unfold returnableIds
        congr 1
        refine List.filter_congr fun messageId _ => ?_
        rw [Bool.eq_iff_iff, decide_eq_true_iff]
        exact returnable_iff uuids runPast _ _ _

/-! ### Every run -/

/-- The subscription, its deadline and its leases stay while it is not deleted. -/
theorem deadline_stays {project : String} {start store : Store} {history : List PubsubEvent}
    (uuids : UuidLaws ‹External›) (run : Run (perform project) start history store)
    (ordered : Ordered start) {subscription : String} {deadline : Int}
    (known : deadlineOf start subscription = some deadline)
    (kept : ∀ event ∈ history, ¬ Deletes project event subscription) :
    deadlineOf store subscription = some deadline := by
  obtain ⟨row, found, rfl⟩ := Option.map_eq_some_iff.mp known
  obtain ⟨member, named⟩ := findSubscription_some found
  rw [← named] at kept
  have stays := subscription_stays run member kept
  have after := ordered_run uuids run ordered
  have found' : findSubscription store subscription = some row := by
    unfold findSubscription
    cases here : store.subscriptions.find? fun row => row.name == subscription with
    | none =>
      rw [List.find?_eq_none] at here
      exact absurd (beq_iff_eq.mpr named) (here row stays)
    | some other =>
      obtain ⟨memberOther, namedOther⟩ := findSubscription_some here
      rw [after.subscription_unique memberOther stays (namedOther.trans named.symm)]
  rw [deadlineOf, found']
  rfl

/-- The lease of a row that a pull returned. -/
theorem leased_after {project : String} {past rest : List PubsubEvent} {event : PubsubEvent}
    {store : Store} (uuids : UuidLaws ‹External›)
    (run : Run (perform project) Store.empty (past ++ event :: rest) store)
    {subscription : String} {rows : List (Ackable × Message)}
    (pulls : Pulls project event subscription rows) {pair : Ackable × Message}
    (member : pair ∈ rows) {deadline : Int}
    (known : deadlineOf event.before subscription = some deadline) :
    ∃ row ∈ event.after.ackables, SameRow pair.1 row ∧
      row.leaseUntil = some (event.input.now + deadline * 1000) := by
  obtain ⟨runPast, taken, _⟩ := run.around
  obtain ⟨stored, due, _⟩ := pulled_origin uuids run pulls member
  obtain ⟨here, fresh, _⟩ := isDue_iff.mp due
  have effect := effect_taken uuids taken (ordered_run uuids runPast Ordered.empty)
  obtain ⟨name, limit, call, _⟩ := pulls
  rcases effect.goes pair.1 stored with ⟨_, sameCall, _⟩ | ⟨row, memberRow, evolves⟩
  · rw [call] at sameCall
    cases sameCall
  · refine ⟨row, memberRow, evolves.same, evolves.leased fresh _ (Or.inl ⟨rows, pair, deadline, ?_,
      member, rfl, ?_, rfl⟩)⟩
    · rw [here]
      exact ⟨name, limit, call, by assumption⟩
    · rw [here]
      exact known

/-- The subscription that a pull names has a deadline. -/
theorem Pulls.deadline {project subscription : String} {event : PubsubEvent}
    {rows : List (Ackable × Message)} (taken : event.Taken (perform project))
    (pulls : Pulls project event subscription rows) :
    ∃ deadline, deadlineOf event.before subscription = some deadline := by
  obtain ⟨name, limit, _, rfl, done⟩ := pulls.done taken
  obtain ⟨row, found, _⟩ := pull_ok done
  exact ⟨row.ackDeadlineSeconds, by rw [deadlineOf, found]; rfl⟩

/-- **A second return waits for the lease**, unless the deadline of its ack id was changed to end
earlier. -/
theorem returned_again {project : String} {past between rest : List PubsubEvent}
    {first second : PubsubEvent} {store : Store} (uuids : UuidLaws ‹External›)
    (run : Run (perform project) Store.empty (past ++ first :: (between ++ second :: rest)) store)
    (clocked : Clocked Input.now (past ++ first :: (between ++ second :: rest)))
    {subscription : String} {rowsFirst rowsSecond : List (Ackable × Message)}
    (pullsFirst : Pulls project first subscription rowsFirst)
    (pullsSecond : Pulls project second subscription rowsSecond) {one two : Ackable × Message}
    (memberOne : one ∈ rowsFirst) (memberTwo : two ∈ rowsSecond)
    (same : one.2.messageId = two.2.messageId) {deadline : Int}
    (known : deadlineOf first.before subscription = some deadline) :
    first.input.now + 1000 * deadline ≤ second.input.now ∨
      ∃ event ∈ between, ∃ seconds, Modifies project event subscription one.1.ackId seconds ∧
        event.input.now + seconds * 1000 ≤ second.input.now := by
  obtain ⟨runPast, takenFirst, runLater⟩ := run.around
  obtain ⟨runBetween, takenSecond, _⟩ := runLater.around
  have before := ordered_run uuids runPast Ordered.empty
  have after := before.taken uuids takenFirst
  obtain ⟨leased, memberLeased, sameLeased, lease⟩ := leased_after uuids run pullsFirst memberOne known
  obtain ⟨_, dueOne, storedOne, namedOne, _⟩ := pulled_origin uuids run pullsFirst memberOne
  rw [show past ++ first :: (between ++ second :: rest) =
    (past ++ first :: between) ++ second :: rest by simp] at run
  obtain ⟨storedTwo, dueTwo, _, namedTwo, _⟩ := pulled_origin uuids run pullsSecond memberTwo
  obtain ⟨hereOne, _⟩ := isDue_iff.mp dueOne
  obtain ⟨hereTwo, freshTwo, endedTwo⟩ := isDue_iff.mp dueTwo
  obtain ⟨new, grown, _⟩ := messages_taken takenFirst
  have messageAfter : one.2 ∈ first.after.messages := by
    rw [grown]
    exact List.mem_append_left _ storedOne
  obtain ⟨origin, memberOrigin, since⟩ := since_stored uuids runBetween after storedTwo messageAfter
    (same.trans namedTwo)
  -- The row of the second return is the one that the first return leased.
  have equal : origin = leased := after.row_of_message memberOrigin memberLeased
    ((since.same.subscription.symm.trans hereTwo).trans
      (sameLeased.subscription.trans hereOne).symm)
    (since.same.messageId.symm.trans (namedTwo.symm.trans
      (same.symm.trans (namedOne.trans sameLeased.messageId.symm))))
  rw [equal] at since
  have stays := since.stays
  have last := since.lease freshTwo
  rw [sameLeased.subscription, hereOne] at stays last
  rw [sameLeased.ackId] at last
  rcases last with ⟨_, unchanged⟩ | ⟨earlier, event, later, stop, rfl, leases, _, set⟩
  · rw [unchanged, lease] at endedTwo
    have ended : first.input.now + deadline * 1000 ≤ second.input.now := by simpa using endedTwo
    exact Or.inl (by omega)
  · rw [set] at endedTwo
    have ended : stop ≤ second.input.now := by simpa using endedTwo
    rcases leases with ⟨rows, pair, seconds, pulls, _, _, knownThird, rfl⟩ |
        ⟨seconds, modifies, rfl⟩
    · obtain ⟨runEarlier, _, _⟩ := runBetween.around
      have knownAfter : deadlineOf first.after subscription = some deadline :=
        deadline_stays uuids (Run.single takenFirst) before known fun other member => by
          rw [List.mem_singleton.mp member]
          rintro ⟨_, call, _⟩
          obtain ⟨_, _, sameCall, _⟩ := pullsFirst
          rw [sameCall] at call
          cases call
      have kept := deadline_stays uuids runEarlier after knownAfter fun other member =>
        stays other (List.mem_append_left _ member)
      rw [kept] at knownThird
      have sameDeadline := Option.some.inj knownThird
      have ordered := (List.pairwise_append.mp clocked).2.1
      have later := (List.pairwise_cons.mp ordered).1 event (by simp)
      exact Or.inl (by omega)
    · exact Or.inr ⟨event, by simp, seconds, modifies, ended⟩

/-- **What was acknowledged is not returned again.** -/
theorem acknowledged_gone {project : String} {past between rest : List PubsubEvent}
    {acknowledging event : PubsubEvent} {store : Store} (uuids : UuidLaws ‹External›)
    (run : Run (perform project) Store.empty
      (past ++ acknowledging :: (between ++ event :: rest)) store)
    {publish : PubsubEvent} {row : Ackable} (member : publish ∈ past)
    (fansOut : FansOut publish row)
    (acknowledges : Acknowledges project acknowledging row.subscription row.ackId)
    {rows : List (Ackable × Message)} (pulls : Pulls project event row.subscription rows) :
    ∀ pair ∈ rows, pair.2.messageId ≠ row.messageId := by
  intro pair memberPair same
  obtain ⟨runPast, taken, runLater⟩ := run.around
  obtain ⟨runBetween, _, _⟩ := runLater.around
  have before := ordered_run uuids runPast Ordered.empty
  have after := before.taken uuids taken
  rw [show past ++ acknowledging :: (between ++ event :: rest) =
    (past ++ acknowledging :: between) ++ event :: rest by simp] at run
  obtain ⟨stored, due, _, named, _⟩ := pulled_origin uuids run pulls memberPair
  obtain ⟨here, fresh, _⟩ := isDue_iff.mp due
  obtain ⟨older, newer, rfl⟩ := List.append_of_mem member
  obtain ⟨runOlder, takenPublish, runNewer⟩ := runPast.around
  have published := (ordered_run uuids runOlder Ordered.empty).taken uuids takenPublish
  obtain ⟨message, storedMessage, messageNamed⟩ := published.fanned row fansOut.stored
  obtain ⟨new, grown, _⟩ := messages_run (runNewer.append
    ((Run.single taken).append runBetween))
  -- The row that is returned is, from the publish on, the row that was acknowledged.
  obtain ⟨origin, memberOrigin, since⟩ := since_stored uuids
    (runNewer.append ((Run.single taken).append runBetween)) published stored storedMessage
    (messageNamed.trans (same.symm.trans named))
  have equal : origin = row := published.row_of_message memberOrigin fansOut.stored
    (since.same.subscription.symm.trans here)
    (since.same.messageId.symm.trans (named.symm.trans same))
  rw [equal] at since
  rw [since.acked.mpr (Or.inr ⟨acknowledging, by simp, acknowledges⟩)] at fresh
  cases fresh

/-- **Acknowledging or modifying changes the rows of its own subscription only.** -/
theorem isolated_taken {project : String} {event : PubsubEvent}
    (taken : event.Taken (perform project)) {name : String} {ackIds : List String}
    (call : event.input.call = .acknowledge name ackIds ∨
      ∃ seconds, event.input.call = .modifyAckDeadline name ackIds seconds)
    {subscription : String} (other : fullSub project name ≠ subscription) :
    event.after.topics = event.before.topics ∧
      event.after.subscriptions = event.before.subscriptions ∧
      event.after.messages = event.before.messages ∧
      (event.after.ackables.filter fun row => row.subscription == subscription) =
        event.before.ackables.filter fun row => row.subscription == subscription := by
  rcases taken_commit taken with ⟨error, _, same⟩ | ⟨response, output, done⟩
  · rw [same]
    exact ⟨rfl, rfl, rfl, rfl⟩
  · unfold execute at done
    rcases call with call | ⟨seconds, call⟩
    · simp only [call] at done
      rw [acknowledge_ok (noAnswer_ok done).1]
      refine ⟨rfl, rfl, rfl, filter_map_same (fun row _ => ?_) fun row _ here => ?_⟩
      · split <;> rfl
      · rw [if_neg]
        rintro ⟨_, named⟩
        exact other (named.symm.trans (beq_iff_eq.mp here))
    · simp only [call] at done
      rw [modifyAckDeadline_ok (noAnswer_ok done).1]
      refine ⟨rfl, rfl, rfl, filter_map_same (fun row _ => ?_) fun row _ here => ?_⟩
      · split <;> rfl
      · rw [if_neg]
        rintro ⟨_, named, _⟩
        exact other (named.symm.trans (beq_iff_eq.mp here))

/-- **The delivery of messages**, in a run. -/
structure Delivered (project : String) (history : List PubsubEvent) : Prop where
  fanOut : ∀ past publish rest messageId subscription now, history = past ++ publish :: rest →
    messageId ∈ publishedBy publish →
    (Returnable project (past ++ [publish]) subscription now messageId ↔
      ∃ topicName messages, publish.input.call = .publish topicName messages ∧
        Attached publish.before subscription (fullTopic project topicName))
  oldest : ∀ past event rest name limit rows, history = past ++ event :: rest →
    event.input.call = .pull name limit → event.output = .ok (.received rows) →
    rows.map (fun pair => pair.2.messageId) =
      (returnableIds project past (fullSub project name) event.input.now).take (pullLimit limit)
  unchanged : ∀ past event rest subscription rows, history = past ++ event :: rest →
    Pulls project event subscription rows → ∀ pair ∈ rows, pair.1.messageId = pair.2.messageId ∧
      ∃ publish ∈ past, Publishes project publish pair.2 ∧
        Attached publish.before subscription pair.2.topic ∧
        ∃ row, FansOut publish row ∧ SameRow row pair.1
  leased : ∀ past first between second rest subscription rowsFirst rowsSecond one two deadline,
    history = past ++ first :: (between ++ second :: rest) →
    Pulls project first subscription rowsFirst → Pulls project second subscription rowsSecond →
    one ∈ rowsFirst → two ∈ rowsSecond → one.2.messageId = two.2.messageId →
    deadlineOf first.before subscription = some deadline →
    first.input.now + 1000 * deadline ≤ second.input.now ∨
      ∃ event ∈ between, ∃ seconds, Modifies project event subscription one.1.ackId seconds ∧
        event.input.now + seconds * 1000 ≤ second.input.now
  acknowledged : ∀ past acknowledging between event rest publish row rows,
    history = past ++ acknowledging :: (between ++ event :: rest) → publish ∈ past →
    FansOut publish row → Acknowledges project acknowledging row.subscription row.ackId →
    Pulls project event row.subscription rows → ∀ pair ∈ rows, pair.2.messageId ≠ row.messageId
  isolated : ∀ event ∈ history, ∀ name ackIds subscription,
    (event.input.call = .acknowledge name ackIds ∨
      ∃ seconds, event.input.call = .modifyAckDeadline name ackIds seconds) →
    fullSub project name ≠ subscription → event.after.topics = event.before.topics ∧
      event.after.subscriptions = event.before.subscriptions ∧
      event.after.messages = event.before.messages ∧
      (event.after.ackables.filter fun row => row.subscription == subscription) =
        event.before.ackables.filter fun row => row.subscription == subscription

/-- Right after a publish its messages are returnable from the attached subscriptions. -/
theorem returnable_published {project : String} {past rest : List PubsubEvent}
    {publish : PubsubEvent} {store : Store} (uuids : UuidLaws ‹External›)
    (run : Run (perform project) Store.empty (past ++ publish :: rest) store) {messageId : String}
    (published : messageId ∈ publishedBy publish) (subscription : String) (now : Int) :
    Returnable project (past ++ [publish]) subscription now messageId ↔
      ∃ topicName messages, publish.input.call = .publish topicName messages ∧
        Attached publish.before subscription (fullTopic project topicName) := by
  obtain ⟨runPast, taken, _⟩ := run.around
  have ordered := ordered_run uuids runPast Ordered.empty
  obtain ⟨topicName, messages, ids, call, output, here, done⟩ := publishedBy_ok taken published
  constructor
  · rintro ⟨older, event, newer, row, _, split, fansOut, rfl, rfl, _⟩
    have last : event = publish := by
      rcases List.eq_nil_or_concat newer with rfl | ⟨front, final, rfl⟩
      · exact (List.singleton_inj.mp (List.append_inj' split rfl).2).symm
      · rw [List.concat_eq_append, ← List.cons_append, ← List.append_assoc] at split
        obtain ⟨rfl, equal⟩ := List.append_inj' split rfl
        obtain ⟨_, takenEvent, runFront⟩ := runPast.around
        obtain ⟨new, added, addedIds, _⟩ := messages_taken takenEvent
        have there := fansOut.published
        rw [← addedIds] at there
        obtain ⟨message, memberMessage, named⟩ := List.mem_map.mp there
        obtain ⟨runOlder, _, _⟩ := runPast.around
        refine absurd published ?_
        rw [← named]
        refine not_republished uuids (runFront.append (Run.single taken))
          ((ordered_run uuids runOlder Ordered.empty).taken uuids takenEvent) ?_ publish (by simp)
        rw [added]
        exact List.mem_append_right _ memberMessage
    rw [last] at fansOut
    obtain ⟨_, _, attached⟩ := fansOut_ok uuids taken ordered fansOut
    exact attached
  · rintro ⟨topicName', messages', call', attached⟩
    rw [call] at call'
    cases call'
    obtain ⟨answered, _⟩ := publish_ok done
    rw [answered] at here
    obtain ⟨message, memberMessage, named⟩ := List.mem_map.mp here
    obtain ⟨row, memberRow, rowSubscription, rowMessage⟩ :=
      @ackableRows_complete _ publish.before _ _ _ _ memberMessage (mem_subscriptionsOf.mpr attached)
    have fansOut := (fansOut_iff uuids taken ordered call output).mpr memberRow
    exact ⟨past, publish, [], row, none, rfl, fansOut, rowSubscription, rowMessage.trans named,
      List.forall_mem_nil _, List.forall_mem_nil _, Or.inl ⟨List.forall_mem_nil _, rfl⟩, rfl⟩

/-- **A message that is pulled is what was published**, to a topic of the subscription. -/
theorem pulled_published {project : String} {past rest : List PubsubEvent} {event : PubsubEvent}
    {store : Store} (uuids : UuidLaws ‹External›)
    (run : Run (perform project) Store.empty (past ++ event :: rest) store)
    {subscription : String} {rows : List (Ackable × Message)}
    (pulls : Pulls project event subscription rows) {pair : Ackable × Message}
    (member : pair ∈ rows) : pair.1.messageId = pair.2.messageId ∧
      ∃ publish ∈ past, Publishes project publish pair.2 ∧
        Attached publish.before subscription pair.2.topic ∧
        ∃ row, FansOut publish row ∧ SameRow row pair.1 := by
  obtain ⟨runPast, _, _⟩ := run.around
  obtain ⟨_, due, stored, named, older, publish, newer, first, rfl, fansOut, since⟩ :=
    pulled_origin uuids run pulls member
  obtain ⟨runOlder, taken, runNewer⟩ := runPast.around
  obtain ⟨added, after, ids, published⟩ := messages_taken taken
  obtain ⟨new, grown, _⟩ := messages_run runNewer
  -- The message of the row that was fanned out is the one that the pull joins.
  have here := fansOut.published
  rw [← ids] at here
  obtain ⟨message, memberMessage, sameId⟩ := List.mem_map.mp here
  have same : message = pair.2 := by
    refine (ordered_run uuids runPast Ordered.empty).message_unique ?_ stored
      (sameId.trans (since.same.messageId.symm.trans named.symm))
    rw [grown, after]
    exact List.mem_append_left _ (List.mem_append_right _ memberMessage)
  have publishes := published message memberMessage
  rw [same] at publishes
  obtain ⟨_, _, topicName, messages, call, attached⟩ :=
    fansOut_ok uuids taken (ordered_run uuids runOlder Ordered.empty) fansOut
  refine ⟨named.symm, publish, by simp, publishes, ?_, first, fansOut, since.same⟩
  obtain ⟨_, _, _, _, _, sameCall, _, _, _, topic, _⟩ := publishes
  rw [call] at sameCall
  cases sameCall
  rw [topic, ← (isDue_iff.mp due).1, since.same.subscription]
  exact attached

/-- **Pub/Sub delivery, in every run.** -/
theorem pubsub_delivery {project : String} {history : List PubsubEvent} {store : Store}
    (uuids : UuidLaws ‹External›) (run : PubsubRun project history store) :
    Delivered project history where
  fanOut past publish rest messageId subscription now split published := by
    have whole := run.run
    rw [split] at whole
    exact returnable_published uuids whole published subscription now
  oldest past event rest name limit rows split call output := by
    have whole := run.run
    rw [split] at whole
    exact pulled_oldest uuids whole call output
  unchanged past event rest subscription rows split pulls pair member := by
    have whole := run.run
    rw [split] at whole
    exact pulled_published uuids whole pulls member
  leased past first between second rest subscription rowsFirst rowsSecond one two deadline split
      pullsFirst pullsSecond memberOne memberTwo same known := by
    have whole := run.run
    have clocked := run.clocked
    rw [split] at whole clocked
    exact returned_again uuids whole clocked pullsFirst pullsSecond memberOne memberTwo same known
  acknowledged past acknowledging between event rest publish row rows split member fansOut
      acknowledges pulls := by
    have whole := run.run
    rw [split] at whole
    exact acknowledged_gone uuids whole member fansOut acknowledges pulls
  isolated event member name ackIds subscription call other :=
    isolated_taken (run.run.taken_of_mem event member) call other

end External

/-! ### A run -/

section Sample

attribute [local instance] sampleExternal

/-- A message is pulled twice, once its lease has ended, and acknowledged. -/
def deliveryInputs : List Input :=
  [⟨0, .createTopic "t"⟩, ⟨1, .createSubscription "s" "t" none⟩,
    ⟨2, .publish "t" [⟨"aGk=", .obj []⟩]⟩, ⟨3, .pull "s" 1⟩, ⟨10003, .pull "s" 1⟩,
    ⟨10004, .acknowledge "s" [External.sample.uuid 1]⟩, ⟨30000, .pull "s" 1⟩]

theorem pubsub_delivery_sample :
    Delivered "p" (Run.trace (perform "p") Store.empty deliveryInputs) :=
  pubsub_delivery sample_laws ⟨Run.of_trace (perform "p") deliveryInputs Store.empty, by
    rw [Clocked, ← List.pairwise_map (R := fun first second : Input => first.now ≤ second.now),
      Run.trace_inputs]
    decide⟩

end Sample

end CloudTwin.Pubsub
