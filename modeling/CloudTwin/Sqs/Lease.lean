/-
**The visibility lease.**

A receive that returns a message hides it until its visibility timeout has passed.

* `Leased` and `leased_step` — no request makes a hidden message due earlier, except
  ChangeMessageVisibility with the current handle of the message.
* `Overdue` and `overdue_step` — nothing but a new receive or a ChangeMessageVisibility hides it any
  longer.
* `Receivable` and `receivable_of_due` — a due message of no blocked group is found by every receive.
* `visibility_lease` — both halves, for every run; `lease_extended` is a run in which the message is
  not received again after the timeout, because its visibility was changed to a later time.
-/

import CloudTwin.Sqs.Handles

namespace CloudTwin.Sqs

open Lib

set_option linter.unusedSectionVars false

section External

variable [external : External]

/-- The request returned the message of the row from the queue. -/
def Returned (event : SqsEvent) (queue : SqsQueue) (options : ReceiveOptions) (id : Nat) : Prop :=
  Asked event queue (.receive options) ∧ id ∈ rowsReturned event

/-- The time at which the message that a receive returned is due again. -/
def leaseEnd (event : SqsEvent) (queue : SqsQueue) (options : ReceiveOptions) : Int :=
  event.input.now + 1000 * effectiveTimeout queue options

/-- The request changed the visibility of the message of the row, by its current handle. -/
def Revised (event : SqsEvent) (id : Nat) (timeout : Int) : Prop :=
  ∃ queue row, Asked event queue (.changeVisibility row.receiptHandle timeout) ∧
    event.before.messages.get id = some row ∧ row.queueId = queue.id ∧
    ∃ response, event.output = .ok response

theorem Returned.served {event : SqsEvent} {queue : SqsQueue} {options : ReceiveOptions} {id : Nat}
    (returned : Returned event queue options id) (taken : event.Taken perform) :
    ∃ response, Served event queue (.receive options) response ∧
      ∃ delivery ∈ response.deliveries, delivery.row = id := by
  obtain ⟨response, answered, listed⟩ := mem_rowsReturned returned.2
  exact ⟨response, served_of_asked taken returned.1 answered, listed⟩

/-- What a receive does to a message it returns. -/
theorem Returned.delivered {event : SqsEvent} {queue : SqsQueue} {options : ReceiveOptions}
    {id : Nat} (returned : Returned event queue options id) (taken : event.Taken perform) :
    ∃ row draw, event.before.messages.get id = some row ∧ row.queueId = queue.id ∧
      row.visibleAt ≤ event.input.now ∧ expired queue event.input.now row = false ∧
      event.after.messages.get id = some (deliveredRow
        (pollOf event.before queue options event.input.now)
        (newReceiptHandle queue.name row.messageId draw) row) := by
  obtain ⟨response, one, delivery, listed, rfl⟩ := returned.served taken
  obtain ⟨_, row, draw, same, delivers⟩ := one.delivers listed
  cases same
  exact ⟨row, draw, delivers.was, delivers.here, delivers.due, delivers.alive, delivers.set⟩

/-- The timeout of a receive that was served is not negative. -/
theorem effectiveTimeout_nonneg {event : SqsEvent} {queue : SqsQueue} {options : ReceiveOptions}
    {response : Response} (tidy : Tidy event.before)
    (served : Served event queue (.receive options) response) :
    0 ≤ effectiveTimeout queue options := by
  obtain ⟨_, _, found⟩ := served.found
  obtain ⟨_, checked, _⟩ := bind_ok served.called
  unfold checkReceive at checked
  obtain ⟨_, _, rest⟩ := bind_ok checked
  obtain ⟨_, inRange, _⟩ := bind_ok rest
  unfold effectiveTimeout
  cases asked : options.visibilityTimeout with
  | none => exact (visibilityTimeout_range (tidy.served found).2).1
  | some timeout =>
    by_contra negative
    refine rejectIf_ok.mp inRange ⟨timeout, asked, fun range => negative ?_⟩
    exact range.1

/-! ### The lease holds -/

/-- The message of the row, if it is still there, is not due before the time. -/
structure Leased (id : Nat) (limit : Int) (store : Store) : Prop where
  known : id < store.messages.next
  hidden : ∀ row, store.messages.get id = some row → limit ≤ row.visibleAt

/-- **A request keeps the lease, or revises it.** -/
theorem leased_step {event : SqsEvent} {id : Nat} {limit : Int} (tidy : Tidy event.before)
    (taken : event.Taken perform) (leased : Leased id limit event.before) :
    Leased id limit event.after ∨
      ∃ timeout, Revised event id timeout ∧ event.input.now + timeout * 1000 < limit := by
  rcases taken_served taken with ⟨same, _⟩ | ⟨_, _, _, served⟩
  · exact Or.inl ⟨by rw [same]; exact leased.known, by rw [same]; exact leased.hidden⟩
  · have known : id < event.after.messages.next :=
      Nat.lt_of_lt_of_le leased.known (taken_grows taken).2
    by_cases early : ∃ timeout, Revised event id timeout ∧
        event.input.now + timeout * 1000 < limit
    · exact Or.inr early
    · refine Or.inl ⟨known, fun row here => ?_⟩
      cases (served_row served id).origin here with
      | kept old visible was => exact leased.hidden old was
      | accepted _ _ _ _ _ fresh => exact absurd leased.known (fresh ▸ Nat.lt_irrefl _)
      | changed old timeout was asked _ home =>
        by_contra less
        exact early ⟨timeout, ⟨_, old, asked ▸ served.found, was, home, _, served.answered⟩,
          not_le.mp less⟩
      | delivered old options draw was asked _ due =>
        have nonneg := effectiveTimeout_nonneg tidy (asked ▸ served)
        have before := leased.hidden old was
        show limit ≤ event.input.now + effectiveTimeout _ options * 1000
        omega
      | redriven old options draw dlq max was _ _ due =>
        exact (leased.hidden old was).trans due

/-! ### The lease ends -/

/-- The message of the row, if it is still there, is due at the time. -/
structure Overdue (id : Nat) (limit : Int) (store : Store) : Prop where
  known : id < store.messages.next
  due : ∀ row, store.messages.get id = some row → row.visibleAt ≤ limit

/-- **A request that neither returns the message nor revises its visibility leaves it due.** -/
theorem overdue_step {event : SqsEvent} {id : Nat} {limit : Int} (taken : event.Taken perform)
    (overdue : Overdue id limit event.before) (past : event.input.now ≤ limit)
    (notReturned : id ∉ rowsReturned event)
    (notRevised : ∀ timeout, Revised event id timeout →
      event.input.now + timeout * 1000 ≤ limit) : Overdue id limit event.after := by
  rcases taken_served taken with ⟨same, _⟩ | ⟨_, _, _, served⟩
  · exact ⟨by rw [same]; exact overdue.known, by rw [same]; exact overdue.due⟩
  · refine ⟨Nat.lt_of_lt_of_le overdue.known (taken_grows taken).2, fun row here => ?_⟩
    cases (served_row served id).origin here with
    | kept old visible was => exact overdue.due old was
    | accepted _ _ _ _ _ fresh => exact absurd overdue.known (fresh ▸ Nat.lt_irrefl _)
    | changed old timeout was asked _ home =>
      exact notRevised timeout ⟨_, old, asked ▸ served.found, was, home, _, served.answered⟩
    | delivered old options draw _ _ _ _ _ _ listed =>
      refine absurd ?_ notReturned
      rw [rowsReturned, served.answered]
      obtain ⟨delivery, member, same⟩ := listed
      exact List.mem_map.mpr ⟨delivery, member, same⟩
    | redriven => exact past

/-- The message of the row is in flight in the queue. -/
def InFlight (store : Store) (queue : SqsQueue) (now : Int) (id : Nat) (row : MessageRow) : Prop :=
  store.messages.get id = some row ∧ row.queueId = queue.id ∧ expired queue now row = false ∧
    now < row.visibleAt ∧ 0 < row.receiveCount

/-- **Every receive finds the message of the row**: it returns it, unless it has returned its
maximum number of messages from earlier rows, or moves it to the dead-letter queue, or, in a FIFO
queue, an earlier message of its group. -/
def Receivable (store : Store) (queue : SqsQueue) (now : Int) (id : Nat) (row : MessageRow) :
    Prop :=
  ∀ options, ∃ received after, receiveTx store queue options now = .ok (received, after) ∧
    ((∃ delivery ∈ received.deliveries, delivery.row = id) ∨
      (options.max ≤ (received.deliveries.length : Int) ∧
        ∀ delivery ∈ received.deliveries, delivery.row < id) ∨
      (∃ dlq, (id, dlq) ∈ received.redriven) ∨
      (queue.isFifo = true ∧ ∃ earlier other dlq, earlier < id ∧
        (earlier, dlq) ∈ received.redriven ∧ store.messages.get earlier = some other ∧
        other.groupId = row.groupId))

/-- A receive does not fail. -/
theorem receiveTx_total (laws : UuidLaws external) {store : Store} {queue : SqsQueue}
    (minted : Minted store.messages store.drawn) (queueBar : '|' ∉ queue.name.toList)
    (options : ReceiveOptions) (now : Int) :
    ∃ received after, receiveTx store queue options now = .ok (received, after) := by
  have start : Progress (pollOf (refresh store queue now) queue options now)
      (refresh store queue now) [] (candidates (refresh store queue now) queue now)
      (scanStart (refresh store queue now) queue now) := progress_start
  obtain ⟨final, looped⟩ := scanCandidates_total laws queueBar _ [] _ start
    (refresh_minted laws minted)
  exact ⟨final.received, final.store, by rw [receiveTx]; simp only [looped, bind, Except.bind]; rfl⟩

/-- **A due message of no blocked group is receivable.** -/
theorem receivable_of_due (laws : UuidLaws external) {store : Store} {queue : SqsQueue} {now : Int}
    {id : Nat} {row : MessageRow} (minted : Minted store.messages store.drawn)
    (queueBar : '|' ∉ queue.name.toList) (here : store.messages.get id = some row)
    (home : row.queueId = queue.id) (alive : expired queue now row = false)
    (due : row.visibleAt ≤ now)
    (free : queue.isFifo = true → ∀ other member, other ≠ id → member.groupId = row.groupId →
      ¬ InFlight store queue now other member) : Receivable store queue now id row := by
  intro options
  obtain ⟨received, after, done⟩ := receiveTx_total laws minted queueBar options now
  obtain ⟨seen, unseen, final, scanned, rfl, rfl⟩ := receiveTx_scanned done
  refine ⟨final.received, final.store, done, ?_⟩
  -- The row is one of the candidates of the refreshed table.
  obtain ⟨visible, refreshed⟩ : ∃ visible,
      (refresh store queue now).messages.get id = some { row with visible } := by
    rcases refresh_get store queue now id with ⟨was, _⟩ | ⟨old, was, ⟨late, _⟩ | ⟨_, flagged⟩⟩
    · rw [here] at was
      cases was
    · rw [here] at was
      cases was
      rw [alive] at late
      cases late
    · rw [here] at was
      cases was
      exact flagged
  have candidate : (id, { row with visible }) ∈ seen ++ unseen := by
    rw [← scanned.whole]
    exact (Table.mem_select _ _ _ _).mpr ⟨refreshed, by simp [home, due]⟩
  rcases List.mem_append.mp candidate with turned | waiting
  · rcases scanned.turns.handled _ turned with ⟨fifo, group, named, cause⟩ | returned | moved
    · rcases cause with blocked | ⟨earlier, listed, less, sameGroup, dlq, moved⟩
      · -- Only another message of the group can have blocked it, and none is in flight.
        obtain ⟨other, member, flying, sameGroup⟩ := mem_blockedGroups blocked
        obtain ⟨old, was, aliveOther, same⟩ := refresh_back flying.1
        rw [same] at sameGroup flying
        refine absurd ⟨was, flying.2.1, aliveOther, flying.2.2.1, flying.2.2.2⟩
          (free fifo other old (fun equal => ?_) (sameGroup.trans named.symm))
        rw [equal, here] at was
        cases was
        exact absurd due (not_le.mpr flying.2.2.1)
      · have found : (refresh store queue now).messages.get earlier.1 = some earlier.2 := by
          have member : earlier ∈ candidates (refresh store queue now) queue now :=
            scanned.whole ▸ List.mem_append_left _ listed
          exact ((Table.mem_select _ _ _ _).mp member).1
        obtain ⟨old, was, _, same⟩ := refresh_back found
        rw [same] at sameGroup
        exact Or.inr (Or.inr (Or.inr
          ⟨fifo, earlier.1, old, dlq, less, moved, was, sameGroup.trans named.symm⟩))
    · exact Or.inl returned
    · exact Or.inr (Or.inr (Or.inl moved))
  · refine Or.inr (Or.inl ⟨?_, fun delivery listed => ?_⟩)
    · rcases scanned.finished with none | enough
      · rw [none] at waiting
        cases waiting
      · exact enough
    · exact (scanned.progress.untouched _ waiting).2.1 delivery listed

/-! ### Runs -/

/-- **The visibility lease.** After a receive returns a message with a timeout,

* no receive returns it again before the timeout has passed, unless in between a
  ChangeMessageVisibility with its current handle set an earlier time;
* it is receivable at every time from then on at which it is still stored in the queue and has not
  expired, if no receive has returned it since, no ChangeMessageVisibility with its current handle
  has set a later time, and (FIFO) no other message of its group is in flight. -/
theorem visibility_lease (laws : UuidLaws external) {past later : List SqsEvent} {first : SqsEvent}
    {store : Store} {queue : SqsQueue} {options : ReceiveOptions} {id : Nat}
    (served : ServiceRun (past ++ first :: later) store)
    (returned : Returned first queue options id) :
    (∀ between second rest other otherOptions, later = between ++ second :: rest →
      Returned second other otherOptions id →
      second.input.now < leaseEnd first queue options →
      ∃ event ∈ between, ∃ timeout, Revised event id timeout ∧
        event.input.now + timeout * 1000 < leaseEnd first queue options) ∧
    (∀ now current name row, getQueue store name = .ok current →
      store.messages.get id = some row → row.queueId = current.id →
      expired current now row = false → leaseEnd first queue options ≤ now →
      (∀ event ∈ later, event.input.now ≤ now) → (∀ event ∈ later, id ∉ rowsReturned event) →
      (∀ event ∈ later, ∀ timeout, Revised event id timeout →
        event.input.now + timeout * 1000 ≤ leaseEnd first queue options) →
      (current.isFifo = true → ∀ other member, other ≠ id → member.groupId = row.groupId →
        ¬ InFlight store current now other member) →
      Receivable store current now id row) := by
  obtain ⟨runPast, taken, runLater⟩ := served.around
  obtain ⟨row, draw, _, _, _, _, set⟩ := returned.delivered taken
  have known : id < first.after.messages.next := Table.get_lt set
  -- The receive that returned the message made it due exactly at the end of the lease.
  have ends : ∀ now, first.after.messages.get id = some now →
      now.visibleAt = leaseEnd first queue options := by
    intro now here
    rw [set] at here
    cases here
    rw [leaseEnd, Int.mul_comm]
    rfl
  have tidy : Tidy first.after := tidy_step taken runPast.tidy
  refine ⟨fun between second rest other otherOptions whole more early => ?_,
    fun now current name row found stored home alive ended clock notReturned notRevised free => ?_⟩
  · subst whole
    obtain ⟨runBetween, takenSecond, _⟩ := runLater.around
    have leased : Tidy first.after ∧ Leased id (leaseEnd first queue options) first.after :=
      ⟨tidy, known, fun now here => (ends now here).ge⟩
    rcases runBetween.invariant_unless
      (fun store => Tidy store ∧ Leased id (leaseEnd first queue options) store) leased
      (fun event _ taken inv => (leased_step inv.1 taken inv.2).imp_left
        fun kept => ⟨tidy_step taken inv.1, kept⟩) with kept | excused
    · obtain ⟨row, _, was, _, due, _, _⟩ := more.delivered takenSecond
      exact absurd (kept.2.hidden row was) (not_le.mpr (lt_of_le_of_lt due early))
    · exact excused
  · have overdue : Overdue id now store := by
      refine runLater.invariant_along ⟨known, fun row here => (ends row here).le.trans ended⟩ ?_
      intro event member taken before
      exact overdue_step taken before (clock event member) (notReturned event member)
        fun timeout revised => (notRevised event member timeout revised).trans ended
    exact receivable_of_due laws (served.minted laws) (served.tidy.queueBar found) stored home alive
      (overdue.due row stored) free

/-- After its lease a stored message that has not expired is receivable, in a run whose later
requests satisfy the proviso. -/
def ReceivableAfterLease (proviso : List SqsEvent → Nat → Int → Prop) : Prop :=
  ∀ past later first store queue options id, ServiceRun (past ++ first :: later) store →
    Returned first queue options id → proviso later id (leaseEnd first queue options) →
    ∀ now current name row, getQueue store name = .ok current →
      store.messages.get id = some row → row.queueId = current.id →
      expired current now row = false → leaseEnd first queue options ≤ now →
      (∀ event ∈ later, event.input.now ≤ now) →
      (current.isFifo = true → ∀ other member, other ≠ id → member.groupId = row.groupId →
        ¬ InFlight store current now other member) →
      Receivable store current now id row

end External

section Sample

attribute [local instance] External.sample

theorem sampleFirst_returned : ∃ queue, Returned sampleFirst queue { max := 1 } 1 ∧
    leaseEnd sampleFirst queue { max := 1 } = 30000 := by
  obtain ⟨queue, found, timeout⟩ : ∃ queue, (getQueue sampleStore "orders").toOption = some queue ∧
      queue.attrI64 "VisibilityTimeout" = 30 := Option.map_eq_some_iff.mp (by decide)
  refine ⟨queue, ⟨⟨"orders", rfl, ok_of_toOption found⟩, by decide⟩, ?_⟩
  show (0 : Int) + 1000 * queue.attrI64 "VisibilityTimeout" = 30000
  rw [timeout]
  rfl

/-- The message is still hidden at 10000, and receivable at 30000. -/
theorem visibility_lease_sample :
    (∀ queue options, ¬ Returned (Event.of perform sampleFirst.after (sampleReceive 10000)) queue
      options 1) ∧
    ∃ current row, Receivable (Event.of perform sampleFirst.after (sampleReceive 10000)).after
      current 30000 1 row := by
  have served : ServiceRun (Run.trace perform Store.empty [sampleCreate 0, sampleSend 0] ++
      sampleFirst :: [Event.of perform sampleFirst.after (sampleReceive 10000)])
      (Event.of perform sampleFirst.after (sampleReceive 10000)).after :=
    ServiceRun.of_inputs [sampleCreate 0, sampleSend 0, sampleReceive 0, sampleReceive 10000]
      (by decide)
  obtain ⟨queue, returned, ends⟩ := sampleFirst_returned
  obtain ⟨hidden, due⟩ := visibility_lease sample_laws served returned
  rw [ends] at hidden due
  refine ⟨fun other options again => ?_, ?_⟩
  · obtain ⟨_, none, _⟩ := hidden [] _ [] other options rfl again (by decide)
    cases none
  · obtain ⟨current, found, facts⟩ : ∃ current,
        (getQueue (Event.of perform sampleFirst.after (sampleReceive 10000)).after
          "orders").toOption = some current ∧
        (current.isFifo, ((Event.of perform sampleFirst.after
          (sampleReceive 10000)).after.messages.get 1).map fun row =>
            (row.queueId == current.id, expired current 30000 row)) =
          (false, some (true, false)) :=
      Option.map_eq_some_iff.mp (by decide)
    obtain ⟨kind, stored⟩ := Prod.mk.inj facts
    obtain ⟨row, here, facts⟩ := Option.map_eq_some_iff.mp stored
    obtain ⟨home, alive⟩ := Prod.mk.inj facts
    refine ⟨current, row, due 30000 current "orders" row (ok_of_toOption found) here
      (beq_iff_eq.mp home) alive le_rfl ?_ ?_ ?_ ?_⟩
    · intro event member
      rw [List.mem_singleton.mp member]
      decide
    · intro event member
      rw [List.mem_singleton.mp member]
      decide
    · rintro event member timeout ⟨_, _, ⟨_, request, _⟩, _⟩
      rw [List.mem_singleton.mp member] at request
      cases request
    · intro fifo
      rw [kind] at fifo
      cases fifo

/-- ChangeMessageVisibility on the message of `sampleFirst`. -/
def sampleChange (now timeout : Int) : Input where
  now := now
  request := .on "orders"
    (.changeVisibility (newReceiptHandle "orders" (External.uuid 0) 2) timeout)

/-- One more request, after which a receive at some later time returns nothing. -/
theorem not_receivable {proviso : List SqsEvent → Nat → Int → Prop} (input : Input) (now : Int)
    (clock : 0 ≤ input.now ∧ input.now ≤ now) (ended : 30000 ≤ now)
    (holds : proviso [Event.of perform sampleFirst.after input] 1 30000)
    (computed : (getQueue (Event.of perform sampleFirst.after input).after "orders").toOption.map
      (fun current => (current.isFifo,
        ((Event.of perform sampleFirst.after input).after.messages.get 1).map fun row =>
          (row.queueId == current.id, expired current now row),
        (receiveTx (Event.of perform sampleFirst.after input).after current { max := 10 }
          now).toOption.map fun result =>
            result.1.deliveries.isEmpty && result.1.redriven.isEmpty)) =
      some (false, some (true, false), some true)) : ¬ ReceivableAfterLease proviso := by
  intro claim
  have served : ServiceRun (Run.trace perform Store.empty [sampleCreate 0, sampleSend 0] ++
      sampleFirst :: [Event.of perform sampleFirst.after input])
      (Event.of perform sampleFirst.after input).after :=
    ServiceRun.of_inputs [sampleCreate 0, sampleSend 0, sampleReceive 0, input]
      (by simp [sampleCreate, sampleSend, sampleReceive, clock.1])
  obtain ⟨queue, returned, ends⟩ := sampleFirst_returned
  obtain ⟨current, found, facts⟩ := Option.map_eq_some_iff.mp computed
  simp only [Prod.mk.injEq] at facts
  obtain ⟨kind, stored, result⟩ := facts
  obtain ⟨row, here, facts⟩ := Option.map_eq_some_iff.mp stored
  obtain ⟨home, alive⟩ := Prod.mk.inj facts
  have receivable := claim _ _ _ _ queue _ _ served returned (ends.symm ▸ holds) now current
    "orders" row (ok_of_toOption found) here (beq_iff_eq.mp home) alive (ends.symm ▸ ended)
    (fun event member => by rw [List.mem_singleton.mp member]; exact clock.2)
    (fun fifo => by rw [kind] at fifo; cases fifo)
  obtain ⟨received, after, done, outcome⟩ := receivable { max := 10 }
  rw [done] at result
  simp only [Except.toOption, Option.map_some, Option.some.injEq, Bool.and_eq_true,
    List.isEmpty_iff] at result
  rcases outcome with ⟨_, member, _⟩ | ⟨many, _⟩ | ⟨_, member⟩ | ⟨fifo, _⟩
  · rw [result.1] at member
    cases member
  · rw [result.1] at many
    exact absurd many (by decide)
  · rw [result.2] at member
    cases member
  · rw [kind] at fifo
    cases fifo

/-- **A message is not receivable merely because its lease has ended**: its visibility may have been
changed to a later time, and another receive may have returned it. Neither proviso of
`visibility_lease` can be left out. -/
theorem lease_extended :
    ¬ ReceivableAfterLease (fun _ _ _ => True) ∧
    ¬ ReceivableAfterLease (fun later id _ => ∀ event ∈ later, id ∉ rowsReturned event) ∧
    ¬ ReceivableAfterLease (fun later id limit => ∀ event ∈ later, ∀ timeout,
      Revised event id timeout → event.input.now + timeout * 1000 ≤ limit) := by
  have changed : ¬ ReceivableAfterLease
      (fun later id _ => ∀ event ∈ later, id ∉ rowsReturned event) := by
    refine not_receivable (sampleChange 1000 43200) 30000 (by decide) le_rfl
      (fun event member => ?_) (by decide +kernel)
    rw [List.mem_singleton.mp member]
    decide +kernel
  refine ⟨fun claim => changed ?_, changed, ?_⟩
  · intro past later first store queue options id served returned _
    exact claim past later first store queue options id served returned trivial
  · refine not_receivable (sampleReceive 30000) 40000 (by decide) (by decide)
      (fun event member timeout revised => ?_) (by decide)
    obtain ⟨_, _, ⟨_, request, _⟩, _⟩ := revised
    rw [List.mem_singleton.mp member] at request
    cases request

end Sample

end CloudTwin.Sqs
