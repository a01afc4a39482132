/-
**Peek-lock exclusivity.**

A receive locks what it returns, and only a settlement with the token ends a lock. The token is drawn
once, when the message is stored: all receives of a message return the same token, and the token is
what a completion asks for, not the lock.

* `unreturned_run` — a message that is not active is not returned until it is settled.
* `peek_lock` — what holds of every run.
-/

import CloudTwin.Servicebus.Messages

namespace CloudTwin.Servicebus

open Lib

set_option linter.unusedSectionVars false

section External

variable [External]

/-- Two copies of one message: those in one place under one message id. -/
def IsCopy (first second : AsbMessage) : Prop :=
  first.messageId = second.messageId ∧ first.queueName = second.queueName

/-- The event is a successful settlement with the token. -/
def SettlesToken (event : ServicebusEvent) (token : String) : Prop :=
  ∃ entity settlement, Settles event entity token settlement

/-- No row with the token is in the excluded state, and no new row will get the token. -/
structure Barred (token : String) (excluded : MessageState → Prop) (store : Store) : Prop where
  drawn : ∃ draw < store.drawn, token = External.uuid draw
  barred : ∀ message ∈ store.messages, message.lockToken = token → ¬ excluded message.visible

theorem drawn_le {event : ServicebusEvent} (taken : event.Taken perform) :
    event.before.drawn ≤ event.after.drawn := by
  rw [after_taken taken]
  unfold perform
  cases event.input with
  | createQueue name =>
    simp only [createQueue]
    split <;> exact le_rfl
  | deleteQueue name => exact le_rfl
  | createTopic name =>
    simp only [createTopic]
    split <;> exact le_rfl
  | deleteTopic name => exact le_rfl
  | createSubscription topic name =>
    simp only [createSubscription, Prod.map_snd, id]
    split
    · exact le_rfl
    · split <;> exact le_rfl
  | deleteSubscription topic name => exact le_rfl
  | sendMessage queue body =>
    simp only [sendMessage, Prod.map_snd, id]
    split
    · exact le_rfl
    · exact Nat.le_add_right _ _
  | sendTopicMessage topic body =>
    simp only [sendTopicMessage, Prod.map_snd, id]
    split
    · exact le_rfl
    · show event.before.drawn ≤ event.before.drawn + 1 + _
      omega
  | receiveMessages entity limit => exact le_rfl
  | settle entity lockToken settlement =>
    show event.before.drawn ≤ (settle _ _ _ settlement.state).2.drawn
    cases settlement <;> exact le_rfl

/-- A step that no row with the token enters the excluded states by. -/
theorem Barred.taken {token : String} {excluded : MessageState → Prop} {event : ServicebusEvent}
    (uuids : UuidLaws ‹External›) (taken : event.Taken perform) (unique : Stored event.before)
    (stays : ∀ old later, Evolves event old later → old.lockToken = token →
      ¬ excluded old.visible → ¬ excluded later.visible)
    (before : Barred token excluded event.before) : Barred token excluded event.after := by
  obtain ⟨draw, early, same⟩ := before.drawn
  refine ⟨⟨draw, Nat.lt_of_lt_of_le early (drawn_le taken), same⟩, fun later member named => ?_⟩
  rcases origin_taken taken unique later member with ⟨old, stored, evolves⟩ | inserted
  · have namedOld : old.lockToken = token := by rw [← evolves.same.lockToken, named]
    exact stays old later evolves namedOld (before.barred old stored namedOld)
  · obtain ⟨new, late, drawn⟩ := inserted.token
    have equal := uuids.fresh (same.symm.trans (named.symm.trans drawn))
    omega

/-- **A message that is not active does not get active until it is settled.** -/
theorem unreturned_run {token : String} {start store : Store} {history : List ServicebusEvent}
    (uuids : UuidLaws ‹External›) (run : Run perform start history store)
    (unique : Stored start) (barred : Barred token (· = .active) start)
    (unsettled : ∀ event ∈ history, ¬ SettlesToken event token) :
    Barred token (· = .active) store := by
  have both : Stored store ∧ Barred token (· = .active) store := by
    refine @Run.invariant_along _ _ _ _ _ _ _
      (fun store => Stored store ∧ Barred token (· = .active) store) run ⟨unique, barred⟩ ?_
    rintro event member taken ⟨stored, before⟩
    refine ⟨stored.taken uuids taken, before.taken uuids taken stored ?_⟩
    intro old later evolves named inactive
    rcases evolves.moves with same | ⟨_, locked, _⟩ | ⟨_, _, entity, settlement, settles, _⟩
    · rwa [same]
    · rw [locked]
      decide
    · rw [evolves.same.lockToken, named] at settles
      exact absurd ⟨entity, settlement, settles⟩ (unsettled event member)
  exact both.2

/-- A dead-lettered message stays so. -/
theorem deadletter_run {token : String} {start store : Store} {history : List ServicebusEvent}
    (uuids : UuidLaws ‹External›) (run : Run perform start history store)
    (unique : Stored start) (barred : Barred token (· ≠ .deadletter) start) :
    Barred token (· ≠ .deadletter) store := by
  have both : Stored store ∧ Barred token (· ≠ .deadletter) store := by
    refine @Run.invariant _ _ _ _ _ _ _
      (fun store => Stored store ∧ Barred token (· ≠ .deadletter) store) run ⟨unique, barred⟩ ?_
    rintro event taken ⟨stored, before⟩
    refine ⟨stored.taken uuids taken, before.taken uuids taken stored ?_⟩
    intro old later evolves _ dead
    rw [not_not] at dead ⊢
    rcases evolves.moves with same | ⟨active, _, _⟩ | ⟨locked, _, _⟩
    · rwa [same]
    · rw [dead] at active
      cases active
    · rw [dead] at locked
      cases locked
  exact both.2

/-- A settlement leaves no locked row with its token. -/
theorem released {event : ServicebusEvent} (taken : event.Taken perform)
    (unique : Stored event.before) {token : String} (settles : SettlesToken event token) :
    ∀ message ∈ event.after.messages, message.lockToken = token → message.visible ≠ .locked := by
  obtain ⟨entity, settlement, settles⟩ := settles
  obtain ⟨⟨found, stored, queue, named, locked⟩, after⟩ := settles_taken taken settles
  intro message member same
  rw [after] at member
  cases settlement with
  | complete =>
    obtain ⟨kept, other⟩ := List.mem_filter.mp member
    obtain rfl := unique.row_of_token kept stored (same.trans named.symm)
    simp [queue, same] at other
  | abandon =>
    obtain ⟨old, memberOld, rfl⟩ := List.mem_map.mp member
    by_cases here : (old.queueName == entity.queueName && old.lockToken == token &&
        old.visible == .locked) = true
    · rw [if_pos here]
      exact nofun
    · rw [if_neg here] at same ⊢
      obtain rfl := unique.row_of_token memberOld stored (same.trans named.symm)
      simp [queue, named, locked] at here
  | deadletter =>
    obtain ⟨old, memberOld, rfl⟩ := List.mem_map.mp member
    by_cases here : (old.queueName == entity.queueName && old.lockToken == token &&
        old.visible == .locked) = true
    · rw [if_pos here]
      exact nofun
    · rw [if_neg here] at same ⊢
      obtain rfl := unique.row_of_token memberOld stored (same.trans named.symm)
      simp [queue, named, locked] at here

/-- A dead-lettering leaves no row with its token in another state. -/
theorem deadlettered {event : ServicebusEvent} (taken : event.Taken perform)
    (unique : Stored event.before) {entity : Entity} {token : String}
    (settles : Settles event entity token .deadletter) :
    ∀ message ∈ event.after.messages, message.lockToken = token →
      message.visible = .deadletter := by
  obtain ⟨⟨found, stored, queue, named, locked⟩, after⟩ := settles_taken taken settles
  intro message member same
  rw [after] at member
  obtain ⟨old, memberOld, rfl⟩ := List.mem_map.mp member
  by_cases here : (old.queueName == entity.queueName && old.lockToken == token &&
      old.visible == .locked) = true
  · rw [if_pos here]
  · rw [if_neg here] at same ⊢
    obtain rfl := unique.row_of_token memberOld stored (same.trans named.symm)
    simp [queue, named, locked] at here

/-- The row of a place under a message id has the token. -/
structure Keyed (messageId queueName token : String) (store : Store) : Prop where
  drawn : ∃ draw < store.drawn, messageId = External.uuid draw
  keyed : ∀ message ∈ store.messages, message.messageId = messageId →
    message.queueName = queueName → message.lockToken = token

/-- **A message keeps its token.** -/
theorem keyed_run {messageId queueName token : String} {start store : Store}
    {history : List ServicebusEvent} (uuids : UuidLaws ‹External›)
    (run : Run perform start history store) (unique : Stored start)
    (keyed : Keyed messageId queueName token start) : Keyed messageId queueName token store := by
  have both : Stored store ∧ Keyed messageId queueName token store := by
    refine @Run.invariant _ _ _ _ _ _ _
      (fun store => Stored store ∧ Keyed messageId queueName token store) run ⟨unique, keyed⟩ ?_
    rintro event taken ⟨stored, before⟩
    obtain ⟨draw, early, same⟩ := before.drawn
    refine ⟨stored.taken uuids taken, ⟨draw, Nat.lt_of_lt_of_le early (drawn_le taken), same⟩,
      fun later member id queue => ?_⟩
    rcases origin_taken taken stored later member with ⟨old, memberOld, evolves⟩ | inserted
    · rw [evolves.same.lockToken]
      exact before.keyed old memberOld (evolves.same.messageId.symm.trans id)
        (evolves.same.queueName.symm.trans queue)
    · have equal := uuids.fresh (same.symm.trans (id.symm.trans inserted.messageId))
      omega
  exact both.2

/-- What holds of a message after it was returned. -/
theorem keyed_after {event : ServicebusEvent} (taken : event.Taken perform)
    (unique : Stored event.after) {message : AsbMessage} (returns : Returns event message) :
    Keyed message.messageId message.queueName message.lockToken event.after := by
  obtain ⟨_, _, _, _, _, _, member⟩ := returns_taken taken returns
  refine ⟨unique.idDrawn message member, fun other memberOther id queue => ?_⟩
  rw [unique.row_of_place memberOther member id queue]

/-- What holds of a message in a receive. -/
theorem barred_after {event : ServicebusEvent} (taken : event.Taken perform)
    (unique : Stored event.after) {message : AsbMessage} (returns : Returns event message) :
    Barred message.lockToken (· = .active) event.after := by
  obtain ⟨_, _, _, _, locked, _, member⟩ := returns_taken taken returns
  refine ⟨unique.tokenDrawn message member, fun other memberOther named active => ?_⟩
  rw [unique.row_of_token memberOther member named, locked] at active
  cases active

/-- **Peek-lock**: what a receive returns is returned by no other until it is settled, and what the
token of a message is good for. -/
structure PeekLock (history : List ServicebusEvent) : Prop where
  token : ∀ first ∈ history, ∀ second ∈ history, ∀ one two, Returns first one →
    Returns second two → IsCopy one two → one.lockToken = two.lockToken
  exclusive : ∀ past first between second rest one two,
    history = past ++ first :: (between ++ second :: rest) → Returns first one →
    Returns second two → IsCopy one two → ∃ event ∈ between, SettlesToken event one.lockToken
  locked : ∀ past event rest entity token settlement, history = past ++ event :: rest →
    Settles event entity token settlement → settlement ≠ .complete →
    ∃ older receive newer message, past = older ++ receive :: newer ∧ Returns receive message ∧
      message.queueName = entity.queueName ∧ message.lockToken = token ∧
      (∀ later ∈ newer, ¬ SettlesToken later token) ∧
      ∀ later ∈ newer, ∀ other, Returns later other → ¬ IsCopy message other
  completed : ∀ event ∈ history, ∀ entity token, Settles event entity token .complete →
    ∃ message ∈ event.before.messages, message.queueName = entity.queueName ∧
      message.lockToken = token ∧
      event.after.messages = event.before.messages.filter fun other => other != message
  unsettled : ∀ event ∈ history, ∀ entity token settlement,
    event.input = .settle entity token settlement → event.output = .settled false →
    event.after.messages = event.before.messages
  deadletter : ∀ past event between later rest entity token,
    history = past ++ event :: (between ++ later :: rest) → Settles event entity token .deadletter →
    ∀ message, Returns later message → message.lockToken ≠ token

section Run

variable {history : List ServicebusEvent} {store : Store}

/-- A message that is returned twice was settled in between, under the token that both receives
returned. -/
theorem returned_twice (uuids : UuidLaws ‹External›) {start : Store}
    {past between rest : List ServicebusEvent} {first second : ServicebusEvent}
    (run : Run perform start (past ++ first :: (between ++ second :: rest)) store)
    (unique : Stored start) {one two : AsbMessage} (returnsFirst : Returns first one)
    (returnsSecond : Returns second two) (copy : IsCopy one two) :
    one.lockToken = two.lockToken ∧ ∃ event ∈ between, SettlesToken event one.lockToken := by
  obtain ⟨runPast, takenFirst, runLater⟩ := run.around
  obtain ⟨runBetween, takenSecond, _⟩ := runLater.around
  have uniqueFirst := (stored_run uuids runPast unique).taken uuids takenFirst
  obtain ⟨_, _, _, _, _, member, _⟩ := returns_taken takenSecond returnsSecond
  have keyed := keyed_run uuids runBetween uniqueFirst
    (keyed_after takenFirst uniqueFirst returnsFirst)
  have same : two.lockToken = one.lockToken := keyed.keyed { two with visible := .active } member copy.1.symm copy.2.symm
  refine ⟨same.symm, ?_⟩
  by_contra unsettled
  push Not at unsettled
  have barred := unreturned_run uuids runBetween uniqueFirst
    (barred_after takenFirst uniqueFirst returnsFirst) unsettled
  exact barred.barred _ member same rfl

/-- A message that is settled other than by a completion is locked since the receive that returned
it last. -/
theorem locked_since (uuids : UuidLaws ‹External›) {past rest : List ServicebusEvent}
    {event : ServicebusEvent} (run : ServicebusRun (past ++ event :: rest) store) {entity : Entity}
    {token : String} {settlement : Settlement} (settles : Settles event entity token settlement)
    (notComplete : settlement ≠ .complete) :
    ∃ older receive newer message, past = older ++ receive :: newer ∧ Returns receive message ∧
      message.queueName = entity.queueName ∧ message.lockToken = token ∧
      ∀ later ∈ newer, ¬ SettlesToken later token := by
  obtain ⟨runPast, taken, _⟩ := run.around
  obtain ⟨⟨message, stored, queue, named, locked⟩, _⟩ := settles_taken taken settles
  obtain ⟨older, receive, newer, rfl, unlocked, held⟩ := runPast.since
    (fun store => ∃ message ∈ store.messages, message.queueName = entity.queueName ∧
      message.lockToken = token ∧ message.visible = .locked) (by simp [Store.empty])
    ⟨message, stored, queue, named, locked notComplete⟩
  obtain ⟨runOlder, takenReceive, runNewer⟩ := runPast.around
  have unique := stored_run uuids runOlder Stored.empty
  obtain ⟨later, member, queueLater, namedLater, lockedLater⟩ :=
    held receive List.mem_cons_self
  have returns : Returns receive later := by
    rcases origin_taken takenReceive unique later member with ⟨old, memberOld, evolves⟩ | inserted
    · rcases evolves.moves with same | ⟨_, _, returns⟩ | ⟨_, released, _⟩
      · exact absurd ⟨old, memberOld, evolves.same.queueName.symm.trans queueLater,
          evolves.same.lockToken.symm.trans namedLater, same.symm.trans lockedLater⟩ unlocked
      · exact returns
      · exact absurd lockedLater released
    · rw [inserted.visible] at lockedLater
      cases lockedLater
  refine ⟨older, receive, newer, later, rfl, returns, queueLater, namedLater,
    fun settled memberSettled settlesToken => ?_⟩
  obtain ⟨front, back, rfl⟩ := List.append_of_mem memberSettled
  obtain ⟨runFront, takenSettled, _⟩ := runNewer.around
  have uniqueSettled := stored_run uuids runFront (unique.taken uuids takenReceive)
  obtain ⟨other, memberOther, _, namedOther, lockedOther⟩ :=
    held settled (List.mem_cons_of_mem _ memberSettled)
  exact released takenSettled uniqueSettled settlesToken other memberOther namedOther lockedOther

theorem completed_taken {event : ServicebusEvent} (taken : event.Taken perform)
    (unique : Stored event.before) {entity : Entity} {token : String}
    (settles : Settles event entity token .complete) :
    ∃ message ∈ event.before.messages, message.queueName = entity.queueName ∧
      message.lockToken = token ∧
      event.after.messages = event.before.messages.filter fun other => other != message := by
  obtain ⟨⟨message, stored, queue, named, _⟩, after⟩ := settles_taken taken settles
  refine ⟨message, stored, queue, named, ?_⟩
  rw [after]
  refine List.filter_congr fun other member => ?_
  by_cases same : other = message
  · rw [same]
    simp [queue, named]
  · have apart : other.lockToken ≠ token := fun equal =>
      same (unique.row_of_token member stored (equal.trans named.symm))
    simp [bne_iff_ne.mpr same, beq_eq_false_iff_ne.mpr apart]

theorem unsettled_taken {event : ServicebusEvent} (taken : event.Taken perform) {entity : Entity}
    {token : String} {settlement : Settlement}
    (call : event.input = .settle entity token settlement)
    (answered : event.output = .settled false) :
    event.after.messages = event.before.messages := by
  have after := after_taken taken
  have output := output_taken taken
  unfold perform at after output
  rw [call] at after output
  rw [output] at answered
  have missing : (settle event.before entity.queueName token settlement.state).1 = false :=
    Response.settled.inj answered
  rw [after]
  show (settle event.before entity.queueName token settlement.state).2.messages = _
  cases state : settlement.state with
  | none =>
    rw [state] at missing
    refine List.filter_eq_self.mpr fun message member => ?_
    rw [Bool.not_eq_true', ← Bool.not_eq_true]
    exact List.any_eq_false.mp missing message member
  | some target =>
    rw [state] at missing
    refine (List.map_congr_left fun message member => ?_).trans (List.map_id _)
    have other := List.any_eq_false.mp missing message member
    show (if (message.queueName == entity.queueName && message.lockToken == token &&
      message.visible == .locked) = true then _ else _) = message
    rw [if_neg other]

/-- **Peek-lock exclusivity, in every run.** -/
theorem peek_lock (uuids : UuidLaws ‹External›) (run : ServicebusRun history store) :
    PeekLock history where
  token first memberFirst second memberSecond one two returnsFirst returnsSecond copy := by
    obtain ⟨past, rest, rfl⟩ := List.append_of_mem memberFirst
    rcases List.mem_append.mp memberSecond with earlier | later
    · obtain ⟨older, between, rfl⟩ := List.append_of_mem earlier
      rw [List.append_assoc, List.cons_append] at run
      exact (returned_twice uuids run Stored.empty returnsSecond returnsFirst
        ⟨copy.1.symm, copy.2.symm⟩).1.symm
    · rcases List.mem_cons.mp later with rfl | newer
      · obtain ⟨runPast, taken, _⟩ := run.around
        have unique := (stored_run uuids runPast Stored.empty).taken uuids taken
        obtain ⟨_, _, _, _, _, _, memberOne⟩ := returns_taken taken returnsFirst
        obtain ⟨_, _, _, _, _, _, memberTwo⟩ := returns_taken taken returnsSecond
        rw [unique.row_of_place memberOne memberTwo copy.1 copy.2]
      · obtain ⟨between, rest, rfl⟩ := List.append_of_mem newer
        exact (returned_twice uuids run Stored.empty returnsFirst returnsSecond copy).1
  exclusive past first between second rest one two split returnsFirst returnsSecond copy := by
    rw [split] at run
    exact (returned_twice uuids run Stored.empty returnsFirst returnsSecond copy).2
  locked past event rest entity token settlement split settles notComplete := by
    rw [split] at run
    obtain ⟨older, receive, newer, message, rfl, returns, queue, named, unsettled⟩ :=
      locked_since uuids run settles notComplete
    refine ⟨older, receive, newer, message, rfl, returns, queue, named, unsettled,
      fun later member other returnsLater copy => ?_⟩
    obtain ⟨front, back, rfl⟩ := List.append_of_mem member
    rw [List.append_assoc, List.cons_append, List.append_assoc, List.cons_append] at run
    obtain ⟨_, settled, memberSettled, settles⟩ :=
      returned_twice uuids run Stored.empty returns returnsLater copy
    rw [named] at settles
    exact unsettled settled (List.mem_append_left _ memberSettled) settles
  completed event member entity token settles := by
    obtain ⟨past, rest, rfl⟩ := List.append_of_mem member
    obtain ⟨runPast, taken, _⟩ := run.around
    exact completed_taken taken (stored_run uuids runPast Stored.empty) settles
  unsettled event member entity token settlement call answered :=
    unsettled_taken (run.taken_of_mem event member) call answered
  deadletter past event between later rest entity token split settles message returns named := by
    rw [split] at run
    obtain ⟨runPast, taken, runLater⟩ := run.around
    obtain ⟨runBetween, takenLater, _⟩ := runLater.around
    have unique := stored_run uuids runPast Stored.empty
    obtain ⟨⟨found, stored, _, namedFound, _⟩, _⟩ := settles_taken taken settles
    obtain ⟨draw, early, drawn⟩ := unique.tokenDrawn found stored
    have barred : Barred token (· ≠ .deadletter) event.after :=
      ⟨⟨draw, Nat.lt_of_lt_of_le early (drawn_le taken), namedFound.symm.trans drawn⟩,
        fun other member same => not_not.mpr (deadlettered taken unique settles other member same)⟩
    have after := deadletter_run uuids runBetween (unique.taken uuids taken) barred
    obtain ⟨_, _, _, _, _, member, _⟩ := returns_taken takenLater returns
    exact after.barred _ member named nofun

end Run

end External

/-! ### A run -/

section Sample

@[reducible]
local instance sampleExternal : External := External.sample

/-- One consumer receives a message and abandons it, another receives it, and the first completes
it. -/
def staleCalls : List Call :=
  [.createQueue "q", .sendMessage "q" "m", .receiveMessages (.queue "q") 1,
    .settle (.queue "q") (External.sample.uuid 1) .abandon, .receiveMessages (.queue "q") 1,
    .settle (.queue "q") (External.sample.uuid 1) .complete]

theorem peek_lock_sample : PeekLock (Run.trace perform Store.empty staleCalls) :=
  peek_lock sample_laws (Run.of_trace perform staleCalls Store.empty)

/-- The token of the first receive completes the message that the second has locked. -/
theorem stale_token_completes : ∃ past first between second rest last message,
    Run.trace perform Store.empty staleCalls =
      past ++ first :: (between ++ second :: (rest ++ [last])) ∧
    Returns first message ∧ Returns second message ∧
    (∃ event ∈ between, Settles event (.queue "q") message.lockToken .abandon) ∧
    Settles last (.queue "q") message.lockToken .complete ∧
    message.visible = .locked ∧ message ∈ last.before.messages ∧
    message ∉ last.after.messages := by
  refine ⟨(Run.trace perform Store.empty staleCalls).take 2, _,
    [((Run.trace perform Store.empty staleCalls).get ⟨3, by decide⟩)], _, [], _,
    ⟨External.sample.uuid 0, "q", "m", External.sample.uuid 1, .locked⟩, rfl, ?_⟩
  refine ⟨⟨_, _, _, rfl, rfl, ?_⟩, ⟨_, _, _, rfl, rfl, ?_⟩,
    ⟨_, List.mem_singleton_self _, rfl, rfl⟩, ⟨rfl, rfl⟩, rfl, ?_, ?_⟩
  all_goals decide

end Sample

end CloudTwin.Servicebus
