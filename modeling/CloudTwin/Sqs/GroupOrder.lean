/-
**The order of a FIFO group.**

A receive takes the messages of a queue by row, and skips the groups that have a message in flight.
A message that was never received is not in flight: if it is delayed, later messages of its group
overtake it.

* `receive_inOrder` — within one receive, a message comes after every earlier message of its group,
  unless that one is delayed.
* `Orderly` — a message that enters a FIFO queue finds no message of its group with a later row, and
  none that was never received and is due later.
* `group_order` — in a run of orderly requests no message overtakes another of its group;
  `group_overtaken` is a run in which one does.
-/

import CloudTwin.Sqs.Lease
import CloudTwin.Sqs.Conservation

namespace CloudTwin.Sqs

open Lib

set_option linter.unusedSectionVars false

section External

variable [external : External]

/-- The store holds the message in the row, in the queue and the group. -/
structure InGroup (store : Store) (queueId : Nat) (group : String) (id : Nat) (row : MessageRow) :
    Prop where
  stored : store.messages.get id = some row
  home : row.queueId = queueId
  named : row.groupId = some group

/-! ### One receive -/

/-- A group with a message in flight is blocked. -/
theorem blockedGroups_mem {store : Store} {queue : SqsQueue} {now : Int} {group : String} {id : Nat}
    {row : MessageRow} (fifo : queue.isFifo = true) (member : InGroup store queue.id group id row)
    (hidden : now < row.visibleAt) (received : 0 < row.receiveCount) :
    group ∈ blockedGroups store queue now := by
  rw [blockedGroups, if_pos fifo, List.mem_filterMap]
  refine ⟨(id, row), (Table.mem_select _ _ _ _).mpr ⟨member.stored, ?_⟩, member.named⟩
  simp [member.home, hidden, received]

/-- Rows that stand in increasing order, one before the other. -/
theorem sublist_of_lt {rows : List Nat} (increasing : rows.Pairwise (· < ·)) {first second : Nat}
    (memberFirst : first ∈ rows) (memberSecond : second ∈ rows) (less : first < second) :
    [first, second].Sublist rows := by
  obtain ⟨front, back, rfl⟩ := List.append_of_mem memberSecond
  obtain ⟨_, increasingBack, before⟩ := List.pairwise_append.mp increasing
  have inFront : first ∈ front := by
    rcases List.mem_append.mp memberFirst with inFront | inBack
    · exact inFront
    · rcases List.mem_cons.mp inBack with rfl | later
      · exact absurd less (Nat.lt_irrefl _)
      · exact absurd ((List.pairwise_cons.mp increasingBack).1 first later) (Nat.lt_asymm less)
  exact (List.singleton_sublist.mpr inFront).append
    (List.singleton_sublist.mpr List.mem_cons_self)

/-- **A message is returned after every earlier message of its group**, unless that one is delayed:
never received and not due yet. -/
theorem receive_inOrder {store after : Store} {queue : SqsQueue} {options : ReceiveOptions}
    {now : Int} {received : Received} {group : String} {first second : Nat}
    {firstRow secondRow : MessageRow}
    (done : receiveTx store queue options now = .ok (received, after)) (fifo : queue.isFifo = true)
    (earlier : InGroup store queue.id group first firstRow)
    (alive : expired queue now firstRow = false)
    (notDelayed : ¬ (firstRow.receiveCount = 0 ∧ now < firstRow.visibleAt))
    (stored : store.messages.get second = some secondRow)
    (named : secondRow.groupId = some group) (less : first < second)
    (listed : second ∈ received.deliveries.map Delivery.row) :
    [first, second].Sublist (received.deliveries.map Delivery.row) := by
  obtain ⟨seen, unseen, final, scanned, rfl, rfl⟩ := receiveTx_scanned done
  have increasing : (final.received.deliveries.map Delivery.row).Pairwise (· < ·) :=
    List.pairwise_map.mpr scanned.progress.ordered
  have returned : final.Returned second := List.mem_map.mp listed
  -- The returned message had its turn, and its group was free when the loop began.
  obtain ⟨row, turned, sameGroup⟩ : ∃ row, (second, row) ∈ seen ∧ row.groupId = some group := by
    cases scanned.progress.fates second with
    | left _ notDelivered =>
      obtain ⟨delivery, member, same⟩ := returned
      exact absurd same (notDelivered delivery member)
    | redriven _ _ _ _ _ _ _ notDelivered =>
      obtain ⟨delivery, member, same⟩ := returned
      exact absurd same (notDelivered delivery member)
    | @delivered row _ was turned =>
      obtain ⟨old, before, _, same⟩ := refresh_back was
      rw [stored] at before
      cases before
      exact ⟨row, turned, by rw [same]; exact named⟩
  obtain ⟨free, before⟩ := scanned.turns.inOrder fifo _ turned returned group sameGroup
  -- The earlier message is one of the refreshed table.
  obtain ⟨visible, refreshed⟩ : ∃ visible,
      (refresh store queue now).messages.get first = some { firstRow with visible } := by
    rcases refresh_get store queue now first with ⟨was, _⟩ | ⟨old, was, ⟨late, _⟩ | ⟨_, flagged⟩⟩
    · rw [earlier.stored] at was
      cases was
    · rw [earlier.stored] at was
      cases was
      rw [alive] at late
      cases late
    · rw [earlier.stored] at was
      cases was
      exact flagged
  by_cases due : firstRow.visibleAt ≤ now
  · have candidate : (first, { firstRow with visible }) ∈ seen ++ unseen := by
      rw [← scanned.whole]
      exact (Table.mem_select _ _ _ _).mpr ⟨refreshed, by simp [earlier.home, due]⟩
    rcases List.mem_append.mp candidate with early | late
    · have found := before _ early less earlier.named
      exact sublist_of_lt increasing (List.mem_map.mpr found) listed less
    · have after := (List.pairwise_append.mp scanned.turns.increasing).2.2 _ turned _ late
      exact absurd less (Nat.lt_asymm after)
  · have flying : 0 < firstRow.receiveCount := by
      by_contra none
      exact notDelayed ⟨by omega, not_le.mp due⟩
    have member : InGroup (refresh store queue now) queue.id group first
        { firstRow with visible } := ⟨refreshed, earlier.home, earlier.named⟩
    exact absurd (blockedGroups_mem fifo member (not_le.mp due) flying) free

/-! ### Orderly requests -/

/-- The request put the message of the row into the queue: it accepted the message, or moved it there
from another queue. -/
def Enters (event : SqsEvent) (queueId id : Nat) : Prop :=
  ∃ row, event.after.messages.get id = some row ∧ row.queueId = queueId ∧
    ∀ old, event.before.messages.get id = some old → old.queueId ≠ queueId

/-- **An orderly request.** -/
structure Orderly (event : SqsEvent) : Prop where
  /-- A message that enters a FIFO queue finds no message of its group with a later row, and none
  that was never received and is due later than it. -/
  entering : ∀ queueId id row group other stored, FifoQueue event.before queueId →
    Enters event queueId id → event.after.messages.get id = some row →
    row.groupId = some group → InGroup event.before queueId group other stored →
    event.after.messages.get other ≠ none →
    other < id ∧ ¬ (stored.receiveCount = 0 ∧ row.visibleAt < stored.visibleAt)
  /-- A change of visibility hits messages that were received, not a guessed placeholder. -/
  received : ∀ id timeout row, Revised event id timeout →
    event.before.messages.get id = some row → 0 < row.receiveCount

/-- **The delayed messages of a group stand behind no due one.** -/
def Lined (store : Store) (now : Int) : Prop :=
  ∀ queueId group first second firstRow secondRow, FifoQueue store queueId →
    InGroup store queueId group first firstRow → InGroup store queueId group second secondRow →
    first < second → firstRow.receiveCount = 0 → now < firstRow.visibleAt →
    secondRow.receiveCount = 0 ∧ firstRow.visibleAt ≤ secondRow.visibleAt

theorem Lined.later {store : Store} {now later : Int} (lined : Lined store now)
    (clock : now ≤ later) : Lined store later :=
  fun queueId group first second firstRow secondRow fifo memberFirst memberSecond less fresh hidden =>
    lined queueId group first second firstRow secondRow fifo memberFirst memberSecond less fresh
      (lt_of_le_of_lt clock hidden)

/-- A request stores at most one new row. -/
theorem stored_le {event : SqsEvent} {queue : SqsQueue} {operation : Operation}
    {response : Response} {id : Nat} {row : MessageRow}
    (served : Served event queue operation response)
    (here : event.after.messages.get id = some row) : id ≤ event.before.messages.next := by
  cases (served_row served id).origin here with
  | kept old visible was => exact (Table.get_lt was).le
  | changed old timeout was => exact (Table.get_lt was).le
  | delivered old options draw was => exact (Table.get_lt was).le
  | redriven old options draw dlq max was => exact (Table.get_lt was).le
  | accepted _ _ _ _ _ fresh => exact fresh.le

/-- A delayed message that is not the last was delayed before the request. -/
theorem delayed_back {event : SqsEvent} {queue : SqsQueue} {operation : Operation}
    {response : Response} {id : Nat} {row : MessageRow}
    (served : Served event queue operation response) (orderly : Orderly event)
    (here : event.after.messages.get id = some row) (fresh : row.receiveCount = 0)
    (hidden : event.input.now < row.visibleAt) (less : id < event.before.messages.next) :
    ∃ visible old, event.before.messages.get id = some old ∧ row = { old with visible } := by
  cases (served_row served id).origin here with
  | kept old visible was => exact ⟨visible, old, was, rfl⟩
  | changed old timeout was asked _ home =>
    have received := orderly.received id timeout old
      ⟨queue, old, asked ▸ served.found, was, home, _, served.answered⟩ was
    exact absurd fresh received.ne'
  | delivered => exact absurd fresh (Nat.succ_ne_zero _)
  | redriven => exact absurd hidden (lt_irrefl _)
  | accepted _ _ _ _ _ new => exact absurd new less.ne

/-- **An orderly request keeps the delayed messages lined up.** -/
theorem lined_step {event : SqsEvent} (taken : event.Taken perform) (tidy : Tidy event.before)
    (orderly : Orderly event) (lined : Lined event.before event.input.now) :
    Lined event.after event.input.now := by
  intro queueId group first second firstRow secondRow fifo memberFirst memberSecond less fresh hidden
  rcases taken_served taken with ⟨same, _⟩ | ⟨queue, operation, response, served⟩
  · -- The queue of a stored message is not a new one.
    obtain ⟨home, there⟩ := tidy.housed first firstRow (same ▸ memberFirst.stored)
    have before : FifoQueue event.before queueId :=
      fifo_back taken tidy (memberFirst.home ▸ Table.get_lt there) fifo
    exact lined queueId group first second firstRow secondRow before
      ⟨same ▸ memberFirst.stored, memberFirst.home, memberFirst.named⟩
      ⟨same ▸ memberSecond.stored, memberSecond.home, memberSecond.named⟩ less fresh hidden
  · obtain ⟨visible, old, was, rfl⟩ := delayed_back served orderly memberFirst.stored fresh hidden
      (Nat.lt_of_lt_of_le less (stored_le served memberSecond.stored))
    obtain ⟨home, there⟩ := tidy.housed first old was
    have before : FifoQueue event.before queueId :=
      fifo_back taken tidy (memberFirst.home ▸ Table.get_lt there) fifo
    have earlier : InGroup event.before queueId group first old :=
      ⟨was, memberFirst.home, memberFirst.named⟩
    have past : ∀ row, InGroup event.before queueId group second row →
        row.receiveCount = 0 ∧ old.visibleAt ≤ row.visibleAt := fun row member =>
      lined queueId group first second old row before earlier member less fresh hidden
    have present : event.after.messages.get first ≠ none := by
      rw [memberFirst.stored]
      exact nofun
    -- A message that entered the queue with this request is not due before the delayed one.
    have entered : ∀ row, event.after.messages.get second = some row →
        row.groupId = some group → Enters event queueId second →
        row.receiveCount = 0 → row.receiveCount = 0 ∧ old.visibleAt ≤ row.visibleAt := by
      intro row here named enters none
      have orderly := (orderly.entering queueId second row group first old before enters here named
        earlier present).2
      exact ⟨none, not_lt.mp fun early => orderly ⟨fresh, early⟩⟩
    have stored := memberSecond.stored
    cases (served_row served second).origin memberSecond.stored with
    | kept row visible was => exact past row ⟨was, memberSecond.home, memberSecond.named⟩
    | changed row timeout was asked _ here =>
      have none := (past row ⟨was, memberSecond.home, memberSecond.named⟩).1
      have received := orderly.received second timeout row
        ⟨queue, row, asked ▸ served.found, was, here, _, served.answered⟩ was
      exact absurd none received.ne'
    | delivered row options draw was _ _ due =>
      have waits := (past row ⟨was, memberSecond.home, memberSecond.named⟩).2
      exact absurd (waits.trans due) (not_le.mpr hidden)
    | accepted _ _ _ _ absent =>
      refine entered _ stored memberSecond.named ⟨_, stored, memberSecond.home, ?_⟩ rfl
      intro row was
      rw [absent] at was
      cases was
    | redriven row options draw dlq max was _ _ due =>
      by_cases stays : row.queueId = queueId
      · have waits := (past row ⟨was, stays, memberSecond.named⟩).2
        exact absurd (waits.trans due) (not_le.mpr hidden)
      · refine entered _ stored memberSecond.named ⟨_, stored, memberSecond.home, ?_⟩ rfl
        intro other was'
        rw [was] at was'
        cases was'
        exact stays

theorem ServiceRun.lined {history : List SqsEvent} {store : Store}
    (served : ServiceRun history store) (orderly : ∀ event ∈ history, Orderly event) :
    ∀ now, (∀ event ∈ history, event.input.now ≤ now) → Lined store now := by
  refine served.induct (motive := fun history store => (∀ event ∈ history, Orderly event) →
    ∀ now, (∀ event ∈ history, event.input.now ≤ now) → Lined store now) ?_ ?_ orderly
  · intro _ now _ queueId group first second firstRow secondRow _ member
    exact absurd member.stored nofun
  · intro past event run taken clock ih orderly now later
    have before := ih (fun earlier member => orderly earlier (List.mem_append_left _ member))
      event.input.now clock
    have last : event ∈ past ++ [event] := by simp
    exact (lined_step taken run.tidy (orderly event last) before).later (later event last)

/-! ### Requests that are orderly -/

theorem checkSend_delay {queue : SqsQueue} {input : SendInput} {delay : Int}
    (valid : checkSend queue input = .ok delay) (checked : Checked queue.attributes) :
    0 ≤ delay := by
  obtain ⟨_, _, delayed⟩ := bind_ok valid
  unfold sendDelay at delayed
  split at delayed
  · split at delayed
    · cases delayed
    · split at delayed
      · rename_i range
        cases delayed
        exact range.1
      · cases delayed
  · cases delayed
    exact (delaySeconds_range checked).1

/-- A message enters a queue when it is moved, or accepted as the last row. -/
theorem Enters.cause {event : SqsEvent} {queueId id : Nat} {row : MessageRow}
    (enters : Enters event queueId id) (taken : event.Taken perform) (tidy : Tidy event.before)
    (here : event.after.messages.get id = some row) :
    id ∈ rowsMoved event ∨ (rowAccepted event ≠ none ∧ id = event.before.messages.next ∧
      event.input.now ≤ row.visibleAt) := by
  obtain ⟨found, there, home, elsewhere⟩ := enters
  rw [here] at there
  cases there
  rcases taken_served taken with ⟨same, _⟩ | ⟨queue, operation, response, served⟩
  · exact absurd home (elsewhere row (same ▸ here))
  · rw [rowAccepted, rowsMoved, served.answered]
    cases (served_row served id).origin here with
    | kept old visible was => exact absurd home (elsewhere old was)
    | changed old timeout was => exact absurd home (elsewhere old was)
    | delivered old options draw was => exact absurd home (elsewhere old was)
    | redriven old options draw dlq max was _ _ _ _ _ _ listed =>
      exact Or.inl (List.mem_map.mpr ⟨_, listed, rfl⟩)
    | accepted input delay _ _ _ new _ checked reported =>
      refine Or.inr ⟨fun missing => ?_, new, ?_⟩
      · exact absurd (reported.symm.trans missing) nofun
      · obtain ⟨_, _, found⟩ := served.found
        have natural := checkSend_delay checked (tidy.served found).2
        show event.input.now ≤ event.input.now + delay * 1000
        omega

/-- A request that neither moves a message nor changes a visibility is orderly, if no message is
delayed when it accepts one. -/
theorem orderly_of_due {event : SqsEvent} (taken : event.Taken perform) (tidy : Tidy event.before)
    (still : rowsMoved event = [])
    (unchanged : ∀ name handle timeout,
      event.input.request ≠ .on name (.changeVisibility handle timeout))
    (due : rowAccepted event ≠ none → ∀ id row, event.before.messages.get id = some row →
      row.visibleAt ≤ event.input.now) : Orderly event := by
  refine ⟨fun queueId id row group other stored _ enters here _ member _ => ?_,
    fun id timeout row revised => ?_⟩
  · rcases enters.cause taken tidy here with moved | ⟨accepted, new, later⟩
    · rw [still] at moved
      cases moved
    · refine ⟨new ▸ Table.get_lt member.stored, fun ⟨_, early⟩ => ?_⟩
      exact absurd (later.trans_lt early) (not_lt.mpr (due accepted other stored member.stored))
  · obtain ⟨queue, old, ⟨name, request, _⟩, _⟩ := revised
    exact absurd request (unchanged _ _ _)

/-! ### The order of a group -/

/-- The request accepted the message of the row as new in the queue. -/
def SentTo (event : SqsEvent) (queueId id : Nat) : Prop :=
  ∃ queue input sent, Accepted event queue input sent id ∧ queue.id = queueId

/-- **The first message came into the queue before the second**: it was sent there before, or it was
there when the second one came, and neither has come again since. -/
inductive Precedes (past : List SqsEvent) (queueId first second : Nat) : Prop
  | sent (start between rest : List SqsEvent) (one other : SqsEvent)
      (whole : past = start ++ one :: between ++ other :: rest) (sentFirst : SentTo one queueId first)
      (sentSecond : SentTo other queueId second)
  | entered (start later : List SqsEvent) (event : SqsEvent) (row : MessageRow)
      (whole : past = start ++ event :: later) (enters : Enters event queueId second)
      (was : event.before.messages.get first = some row) (home : row.queueId = queueId)
      (since : ∀ other ∈ later, ¬ Enters other queueId first ∧ ¬ Enters other queueId second)

/-- **A request returns the messages of a FIFO group in order**: before any message it returns, it
returns those of its group that came into the queue before and are still stored. -/
def InGroupOrder (past : List SqsEvent) (event : SqsEvent) : Prop :=
  ∀ queue options group first second firstRow secondRow, Asked event queue (.receive options) →
    queue.isFifo = true → InGroup event.before queue.id group first firstRow →
    expired queue event.input.now firstRow = false →
    InGroup event.before queue.id group second secondRow → second ∈ rowsReturned event →
    Precedes past queue.id first second → [first, second].Sublist (rowsReturned event)

theorem SentTo.row {event : SqsEvent} {queueId id : Nat} (sentTo : SentTo event queueId id)
    (taken : event.Taken perform) :
    id = event.before.messages.next ∧ id < event.after.messages.next := by
  obtain ⟨queue, input, sent, accepted, _⟩ := sentTo
  obtain ⟨row, stored, _⟩ := accepted_row taken accepted
  refine ⟨?_, Table.get_lt stored⟩
  obtain ⟨asked, answered, reported⟩ := accepted
  obtain ⟨⟨result, after⟩, done, rest⟩ := bind_ok (served_of_asked taken asked answered).called
  cases (Prod.mk.inj (Except.ok.inj rest)).1
  cases sendTx_step done with
  | standard => exact (Option.some.inj reported).symm
  | duplicate => cases reported
  | fifo => exact (Option.some.inj reported).symm

/-- **In an orderly run the messages of a group come in by row.** -/
theorem Precedes.row_lt {past : List SqsEvent} {store : Store} {queueId first second : Nat}
    {group : String} {firstRow secondRow : MessageRow} (served : ServiceRun past store)
    (orderly : ∀ event ∈ past, Orderly event) (fifo : FifoQueue store queueId)
    (memberFirst : InGroup store queueId group first firstRow)
    (memberSecond : InGroup store queueId group second secondRow)
    (precedes : Precedes past queueId first second) : first < second := by
  cases precedes with
  | sent start between rest one other whole sentFirst sentSecond =>
    subst whole
    obtain ⟨run, taken, _⟩ := served.around
    obtain ⟨_, takenFirst, runBetween⟩ := run.run.around
    rw [(sentSecond.row taken).1]
    exact Nat.lt_of_lt_of_le (sentFirst.row takenFirst).2 (run_grows runBetween).2
  | entered start later event row whole enters was home since =>
    subst whole
    obtain ⟨run, taken, runLater⟩ := served.around
    obtain ⟨entry, here, _⟩ := id enters
    obtain ⟨house, there⟩ := run.tidy.housed first row was
    have runFrom : Run perform event.before (event :: later) store := Run.cons taken runLater
    have before : FifoQueue event.before queueId :=
      fifo_along runFrom run.tidy (home ▸ Table.get_lt there) fifo
    -- Both messages are still stored, so they have kept their group.
    have sameFirst : SameContent row firstRow := by
      rcases kept_or_gone runFrom was with ⟨now, stored, same⟩ | ⟨gone, _⟩
      · rw [memberFirst.stored] at stored
        cases stored
        exact same
      · rw [memberFirst.stored] at gone
        cases gone
    have sameSecond : SameContent entry secondRow := by
      rcases kept_or_gone runLater here with ⟨now, stored, same⟩ | ⟨gone, _⟩
      · rw [memberSecond.stored] at stored
        cases stored
        exact same
      · rw [memberSecond.stored] at gone
        cases gone
    have present : event.after.messages.get first ≠ none := by
      intro gone
      have given := Nat.lt_of_lt_of_le (Table.get_lt was) (taken_grows taken).2
      have stored := memberFirst.stored
      rw [gone_along runLater given gone] at stored
      cases stored
    exact ((orderly event (by simp)).entering queueId second entry group first row before enters here
      (sameSecond.groupId.symm.trans memberSecond.named)
      ⟨was, home, sameFirst.groupId.symm.trans memberFirst.named⟩ present).1

/-- **The order of FIFO groups.** In a run of orderly requests, every receive returns the messages of
a group in the order in which they came into the queue. -/
theorem group_order {history : List SqsEvent} {store : Store} (served : ServiceRun history store)
    (orderly : ∀ event ∈ history, Orderly event) :
    ∀ past event rest, history = past ++ event :: rest → InGroupOrder past event := by
  intro past event rest whole
  subst whole
  intro queue options group first second firstRow secondRow asked fifo memberFirst alive memberSecond
    returned precedes
  obtain ⟨run, taken, _⟩ := served.around
  have orderlyPast : ∀ earlier ∈ past, Orderly earlier :=
    fun earlier member => orderly earlier (List.mem_append_left _ member)
  obtain ⟨_, _, found⟩ := id asked
  obtain ⟨home, there, attributes⟩ := (run.tidy.served found).1
  have fifoQueue : FifoQueue event.before queue.id := by
    refine ⟨home, there, ?_⟩
    show attrBoolOf home.attributes "FifoQueue" = true
    rw [attributes]
    exact fifo
  have less : first < second :=
    precedes.row_lt run orderlyPast fifoQueue memberFirst memberSecond
  obtain ⟨response, answered, delivery, listed, same⟩ := mem_rowsReturned returned
  have one := served_of_asked taken asked answered
  obtain ⟨_, row, draw, _, delivers⟩ := one.delivers listed
  -- The second message is due, so the first one is not delayed.
  have notDelayed : ¬ (firstRow.receiveCount = 0 ∧ event.input.now < firstRow.visibleAt) := by
    rintro ⟨fresh, hidden⟩
    have was := delivers.was
    rw [same, memberSecond.stored] at was
    cases was
    have waits := (run.lined orderlyPast event.input.now served.clock queue.id group first second
      firstRow secondRow fifoQueue memberFirst memberSecond less fresh hidden).2
    exact absurd (waits.trans delivers.due) (not_le.mpr hidden)
  obtain ⟨_, _, rest⟩ := bind_ok one.called
  obtain ⟨⟨received, after⟩, polled, rest⟩ := bind_ok rest
  cases (Prod.mk.inj (Except.ok.inj rest)).1
  rw [pollTx, requireQueue_again found] at polled
  rw [rowsReturned, answered] at returned ⊢
  exact receive_inOrder polled fifo memberFirst alive notDelayed memberSecond.stored
    memberSecond.named less returned

end External

section Sample

attribute [local instance] External.sample
-- The events of the sample are compared by name, not run.
attribute [local irreducible] perform

/-! A FIFO queue with a delay takes a message, and a second one once the delay is set to zero. -/

def sampleCreated (delay : String) : SqsEvent :=
  Event.of perform Store.empty (sampleCreateFifo 0 delay)

def sampleFirstSend (delay : String) : SqsEvent :=
  Event.of perform (sampleCreated delay).after (sampleSendFifo 0 "first")

def sampleUndelayed (delay : String) : SqsEvent :=
  Event.of perform (sampleFirstSend delay).after (sampleSetDelay 0 "0")

def sampleSecondSend (delay : String) : SqsEvent :=
  Event.of perform (sampleUndelayed delay).after (sampleSendFifo 0 "second")

/-- The requests before the receive. -/
def samplePast (delay : String) : List SqsEvent :=
  [sampleCreated delay, sampleFirstSend delay, sampleUndelayed delay, sampleSecondSend delay]

def sampleLast (delay : String) : SqsEvent :=
  Event.of perform (sampleSecondSend delay).after (sampleReceiveFifo 0)

theorem sample_served (delay : String) :
    ServiceRun (samplePast delay ++ [sampleLast delay]) (sampleLast delay).after := by
  refine ⟨?_, ?_⟩
  · have first : Run perform (sampleCreated delay).before (samplePast delay ++ [sampleLast delay])
        (sampleLast delay).after :=
      Run.cons (Event.of_taken perform _ _) (Run.cons (Event.of_taken perform _ _)
        (Run.cons (Event.of_taken perform _ _) (Run.cons (Event.of_taken perform _ _)
          (Run.cons (Event.of_taken perform _ _) Run.start))))
    exact first
  · have clock : (samplePast delay ++ [sampleLast delay]).map (fun event => event.input.now) =
        [0, 0, 0, 0, 0] := rfl
    refine List.Pairwise.of_map (fun event : SqsEvent => event.input.now) (fun _ _ less => less) ?_
    rw [clock]
    decide

/-- Two messages of one group are stored when the receive asks for them. -/
def samplePair (delay : String) : Bool :=
  (getQueue (sampleLast delay).before "orders.fifo").toOption.any fun queue =>
    queue.isFifo && queue.id == 1 && [1, 2].all fun id =>
      ((sampleLast delay).before.messages.get id).any fun row =>
        row.queueId == 1 && row.groupId == some "group" && !expired queue 0 row

/-- The two messages were sent to the queue. -/
def sampleSends (delay : String) : Bool :=
  [(sampleFirstSend delay, 1), (sampleSecondSend delay, 2)].all fun (event, id) =>
    ((getQueue event.before "orders.fifo").toOption.any fun queue => queue.id == 1) &&
      rowAccepted event == some id

theorem sentTo_of_accepted {event : SqsEvent} {name : String} {input : SendInput}
    {queueId id : Nat} (request : event.input.request = .on name (.send input))
    (found : ((getQueue event.before name).toOption.any fun queue => queue.id == queueId) = true)
    (accepted : rowAccepted event = some id) : SentTo event queueId id := by
  obtain ⟨queue, here, home⟩ := (Option.any_eq_true _ _).mp found
  obtain ⟨sent, answered, row⟩ := rowAccepted_some accepted
  exact ⟨queue, input, sent, ⟨⟨name, request, ok_of_toOption here⟩, answered, row⟩,
    beq_iff_eq.mp home⟩

/-- What the order of the group says about the receive. -/
theorem sample_inOrder {delay : String} (pair : samplePair delay = true)
    (sends : sampleSends delay = true)
    (inOrder : InGroupOrder (samplePast delay) (sampleLast delay))
    (returned : 2 ∈ rowsReturned (sampleLast delay)) :
    [1, 2].Sublist (rowsReturned (sampleLast delay)) := by
  simp only [sampleSends, List.all_cons, List.all_nil, Bool.and_true, Bool.and_eq_true,
    beq_iff_eq] at sends
  have precedes : Precedes (samplePast delay) 1 1 2 :=
    Precedes.sent [sampleCreated delay] [sampleUndelayed delay] [] (sampleFirstSend delay)
      (sampleSecondSend delay) rfl (sentTo_of_accepted rfl sends.1.1 sends.1.2)
      (sentTo_of_accepted rfl sends.2.1 sends.2.2)
  obtain ⟨queue, found, facts⟩ := (Option.any_eq_true _ _).mp pair
  simp only [List.all_cons, List.all_nil, Bool.and_true, Bool.and_eq_true, beq_iff_eq,
    Option.any_eq_true, Bool.not_eq_true'] at facts
  obtain ⟨⟨fifo, home⟩, ⟨first, hereFirst, ⟨homeFirst, namedFirst⟩, alive⟩,
    ⟨second, hereSecond, ⟨homeSecond, namedSecond⟩, _⟩⟩ := facts
  exact inOrder queue { max := 10 } "group" 1 2 first second
    ⟨"orders.fifo", rfl, ok_of_toOption found⟩ fifo ⟨hereFirst, homeFirst.trans home.symm, namedFirst⟩
    alive ⟨hereSecond, homeSecond.trans home.symm, namedSecond⟩ returned (home.symm ▸ precedes)

/-- **A delayed message is overtaken** by a later one of its group that is not delayed. -/
theorem group_overtaken : ¬ ∀ history store, ServiceRun history store →
    ∀ past event rest, history = past ++ event :: rest → InGroupOrder past event := by
  intro claim
  have inOrder := claim _ _ (sample_served "900") (samplePast "900") (sampleLast "900") [] rfl
  have overtaken : 2 ∈ rowsReturned (sampleLast "900") ∧
      ¬ [1, 2].Sublist (rowsReturned (sampleLast "900")) := by decide +kernel
  have both := sample_inOrder (by decide +kernel) (by decide +kernel) inOrder overtaken.1
  exact overtaken.2 both

/-- Without a delay, the two messages are returned in order. -/
theorem group_order_sample : [1, 2].Sublist (rowsReturned (sampleLast "0")) := by
  have created : Tidy (sampleCreated "0").after := tidy_step (Event.of_taken _ _ _) tidy_empty
  have sent : Tidy (sampleFirstSend "0").after := tidy_step (Event.of_taken _ _ _) created
  have undelayed : Tidy (sampleUndelayed "0").after := tidy_step (Event.of_taken _ _ _) sent
  have again : Tidy (sampleSecondSend "0").after := tidy_step (Event.of_taken _ _ _) undelayed
  have due : ∀ event : SqsEvent, (event.before.messages.rows.all fun row =>
      decide (row.2.visibleAt ≤ event.input.now)) = true → ∀ id row,
      event.before.messages.get id = some row → row.visibleAt ≤ event.input.now :=
    fun event all id row here => decide_eq_true_eq.mp
      (List.all_eq_true.mp all (id, row) ((Table.get_eq_some _ _ _).mp here))
  have received : 2 ∈ rowsReturned (sampleLast "0") ∧ rowsMoved (sampleLast "0") = [] := by
    decide +kernel
  refine sample_inOrder (by decide +kernel) (by decide +kernel)
    (group_order (sample_served "0") ?_ (samplePast "0") (sampleLast "0") [] rfl) received.1
  simp only [samplePast, List.cons_append, List.nil_append, List.mem_cons, List.not_mem_nil,
    or_false, forall_eq_or_imp, forall_eq]
  refine ⟨?_, ?_, ?_, ?_, ?_⟩
  · exact orderly_of_due (Event.of_taken _ _ _) tidy_empty (by decide +kernel)
      (fun _ _ _ same => by cases same) fun _ => due _ (by decide)
  · exact orderly_of_due (Event.of_taken _ _ _) created (by decide +kernel)
      (fun _ _ _ same => by cases same) fun _ => due _ (by decide +kernel)
  · exact orderly_of_due (Event.of_taken _ _ _) sent (by decide +kernel)
      (fun _ _ _ same => by cases same) fun _ => due _ (by decide +kernel)
  · exact orderly_of_due (Event.of_taken _ _ _) undelayed (by decide +kernel)
      (fun _ _ _ same => by cases same) fun _ => due _ (by decide +kernel)
  · exact orderly_of_due (Event.of_taken _ _ _) again received.2
      (fun _ _ _ same => by cases same) fun _ => due _ (by decide +kernel)

end Sample

end CloudTwin.Sqs
