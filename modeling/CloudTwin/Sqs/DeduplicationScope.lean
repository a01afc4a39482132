/-
**The deduplication scope of a FIFO queue.**

A queue can be given the `DeduplicationScope` `messageGroup`, and reports it. The records of sends are
kept by queue and deduplication id, whatever the groups of the messages are.

* `answered_as_duplicate` — a send is answered as a duplicate only of a send with its id.
* `HonoursScope` — in the scope of message groups, it is one of the same group.
* `scope_honoured` — a run honours the scope exactly when its sends share ids within their groups.
-/

import CloudTwin.Sqs.Deduplication

namespace CloudTwin.Sqs

open Lib Lib.Text

set_option linter.unusedSectionVars false

section External

variable [external : External]

/-- The request accepted a message of the group as new, under the deduplication id. -/
def AcceptedInGroup (event : SqsEvent) (queueId : Nat) (dedupId : String) (group : Option String) :
    Prop :=
  ∃ queue input sent, Asked event queue (.send input) ∧ queue.id = queueId ∧ queue.isFifo = true ∧
    effectiveDedupId queue input = .ok dedupId ∧ input.groupId = group ∧
    event.output = .ok (.sent sent) ∧ sent.row.isSome = true

theorem AcceptedInGroup.under {event : SqsEvent} {queueId : Nat} {dedupId : String}
    {group : Option String} (accepted : AcceptedInGroup event queueId dedupId group) :
    ∃ sent, AcceptedUnder event queueId dedupId sent := by
  obtain ⟨queue, input, sent, asked, own, fifo, effective, _, answered, new⟩ := accepted
  exact ⟨sent, ⟨queue, input, asked, own, fifo, effective⟩, answered, new⟩

theorem AcceptedUnder.inGroup {event : SqsEvent} {queueId : Nat} {dedupId : String} {sent : Sent}
    (accepted : AcceptedUnder event queueId dedupId sent) :
    ∃ group, AcceptedInGroup event queueId dedupId group := by
  obtain ⟨queue, input, asked, own, fifo, effective⟩ := accepted.asked
  exact ⟨input.groupId, queue, input, sent, asked, own, fifo, effective, rfl, accepted.answered,
    accepted.new⟩

/-- The send was answered as a duplicate: nothing was enqueued. -/
def Duplicate (event : SqsEvent) : Prop :=
  ∃ sent, event.output = .ok (.sent sent) ∧ sent.row = none

def isDuplicate (event : SqsEvent) : Bool :=
  match event.output with
  | .ok (.sent sent) => sent.row.isNone
  | _ => false

theorem duplicate_of {event : SqsEvent} (duplicate : isDuplicate event = true) : Duplicate event := by
  unfold isDuplicate at duplicate
  split at duplicate
  · rename_i sent answered
    exact ⟨sent, answered, Option.isNone_iff_eq_none.mp duplicate⟩
  · cases duplicate

/-- **A send that is answered as a duplicate** passed its checks, and a send with its deduplication id
was accepted within the window. -/
theorem answered_as_duplicate {past rest : List SqsEvent} {event : SqsEvent} {store : Store}
    {queue : SqsQueue} {input : SendInput} {dedupId : String}
    (served : ServiceRun (past ++ event :: rest) store) (asked : Asked event queue (.send input))
    (effective : effectiveDedupId queue input = .ok dedupId) (duplicate : Duplicate event) :
    (∃ delay, checkSend queue input = .ok delay) ∧ ∃ first ∈ past, ∃ sent,
      AcceptedUnder first queue.id dedupId sent ∧ event.input.now ≤ first.input.now + 300000 := by
  obtain ⟨run, taken, _⟩ := served.around
  obtain ⟨sent, answered, none'⟩ := duplicate
  obtain ⟨⟨result, stored⟩, done, rest⟩ :=
    bind_ok (served_of_asked taken asked answered).called
  obtain ⟨same, _⟩ := Prod.mk.inj (Except.ok.inj rest)
  cases same
  obtain ⟨delay, checked, _⟩ := bind_ok done
  refine ⟨⟨delay, checked⟩, ?_⟩
  cases sendTx_step done with
  | standard => cases none'
  | fifo => cases none'
  | duplicate _ effectively known =>
    rw [effective] at effectively
    cases effectively
    obtain ⟨there, key, alive⟩ := findDedup_some known
    obtain ⟨first, member, earlier, accepted, record⟩ :=
      run.remembered.accepted _ (mem_unexpired.mp there).1
    obtain ⟨sameQueue, sameId⟩ := Prod.mk.inj key
    rw [sameQueue, sameId] at accepted record
    rw [record] at alive
    exact ⟨first, member, earlier, accepted, alive⟩

/-- A send to a queue in the scope of message groups, and the requests before it. -/
structure GroupSend (history past : List SqsEvent) (event : SqsEvent) (queue : SqsQueue)
    (input : SendInput) (dedupId : String) : Prop where
  placed : ∃ rest, history = past ++ event :: rest
  asked : Asked event queue (.send input)
  fifo : queue.isFifo = true
  scope : effectiveAttr queue "DeduplicationScope" = some "messageGroup"
  effective : effectiveDedupId queue input = .ok dedupId

/-- A send of the group with the deduplication id was accepted within the window. -/
def SeenInGroup (past : List SqsEvent) (event : SqsEvent) (queueId : Nat) (dedupId : String)
    (group : Option String) : Prop :=
  ∃ first ∈ past, AcceptedInGroup first queueId dedupId group ∧
    event.input.now ≤ first.input.now + 300000

/-- **The scope is honoured**: a send is answered as a duplicate only of a send of its group. -/
def HonoursScope (history : List SqsEvent) : Prop :=
  ∀ past event queue input dedupId, GroupSend history past event queue input dedupId →
    Duplicate event → SeenInGroup past event queue.id dedupId input.groupId

/-- **Ids are shared within groups**: a send that passes its checks, and whose id was seen in some
group within the window, was seen in its own. -/
def IdsInGroups (history : List SqsEvent) : Prop :=
  ∀ past event queue input dedupId delay, GroupSend history past event queue input dedupId →
    checkSend queue input = .ok delay →
    (∃ group, SeenInGroup past event queue.id dedupId group) →
    SeenInGroup past event queue.id dedupId input.groupId

/-- In every run, the scope of message groups is honoured exactly when the sends share ids within
their groups. -/
theorem scope_honoured (laws : UuidLaws external) {history : List SqsEvent} {store : Store}
    (served : ServiceRun history store) : HonoursScope history ↔ IdsInGroups history := by
  constructor
  · rintro honours past event queue input dedupId delay send checked ⟨group, first, member, accepted,
      within⟩
    obtain ⟨sent, under⟩ := accepted.under
    have split := send.placed
    obtain ⟨rest, rfl⟩ := split
    have result := deduplicated laws served send.asked send.fifo checked send.effective
    exact honours past event queue input dedupId send
      ⟨_, (result.duplicate first member sent under within).1, rfl⟩
  · intro shared past event queue input dedupId send duplicate
    have split := send.placed
    obtain ⟨rest, rfl⟩ := split
    obtain ⟨⟨delay, checked⟩, first, member, sent, accepted, within⟩ :=
      answered_as_duplicate served send.asked send.effective duplicate
    obtain ⟨group, inGroup⟩ := accepted.inGroup
    exact shared past event queue input dedupId delay send checked ⟨group, first, member, inGroup,
      within⟩

end External

section Sample

attribute [local instance] External.sample

/-- A FIFO queue in the scope of message groups. -/
def sampleScoped : Input where
  now := 0
  request := .createQueue "orders.fifo" "http://localhost:4566/000000000000/orders.fifo"
    (((∅ : BTreeMap String).insert "FifoQueue" "true").insert "DeduplicationScope" "messageGroup") ∅

def sampleGroupSend (group : String) : Input where
  now := 0
  request := .on "orders.fifo"
    (.send { body := "hello", groupId := some group, dedupId := some "first" })

/-- Two sends of different groups with one deduplication id. -/
def scopedInputs : List Input :=
  [sampleScoped, sampleGroupSend "one", sampleGroupSend "other"]

theorem scope_honoured_sample :
    HonoursScope (Run.trace perform Store.empty scopedInputs) ↔
      IdsInGroups (Run.trace perform Store.empty scopedInputs) :=
  scope_honoured sample_laws (ServiceRun.of_inputs scopedInputs (by decide))

def scopedCreated : SqsEvent :=
  Event.of perform Store.empty sampleScoped

def scopedFirst : SqsEvent :=
  Event.of perform scopedCreated.after (sampleGroupSend "one")

def scopedSecond : SqsEvent :=
  Event.of perform scopedFirst.after (sampleGroupSend "other")

/-- The message of the second group is not enqueued. -/
theorem other_group_lost : ¬ HonoursScope [scopedCreated, scopedFirst, scopedSecond] := by
  intro honours
  obtain ⟨queue, found, facts⟩ : ∃ queue,
      (getQueue scopedSecond.before "orders.fifo").toOption = some queue ∧
      (queue.isFifo, effectiveAttr queue "DeduplicationScope") = (true, some "messageGroup") :=
    Option.map_eq_some_iff.mp (by decide +kernel)
  simp only [Prod.mk.injEq] at facts
  have duplicate : Duplicate scopedSecond := duplicate_of (by decide +kernel)
  obtain ⟨first, member, ⟨_, input, _, asked, _, _, _, group, answered, _⟩, _⟩ :=
    honours [scopedCreated, scopedFirst] scopedSecond queue _ "first"
      ⟨⟨[], rfl⟩, ⟨"orders.fifo", rfl, ok_of_toOption found⟩, facts.1, facts.2, rfl⟩ duplicate
  obtain ⟨name, request, _⟩ := asked
  rcases List.mem_cons.mp member with rfl | rest
  · cases request
  · rw [List.mem_singleton.mp rest] at request
    cases request
    exact absurd group (by decide)

end Sample

end CloudTwin.Sqs
