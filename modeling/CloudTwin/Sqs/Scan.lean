/-
**The loop of `receive_tx`.**

A turn of the loop skips a candidate, moves it to the dead-letter queue or returns it, and a turn
changes no row but its candidate's. `scan_rule` carries an invariant from the start of the loop to
its end, where every candidate had its turn or enough messages are returned.

* `Turn` and `scan_rule` — what a turn can do, and the rule for the loop.
* `Fate` and `Progress` — every row is left alone, returned once, or moved once, and the messages are
  returned in the order of their rows.
* `GroupTurns` — a returned message of a FIFO queue belongs to no group that was blocked when the
  loop began, and the candidates of its group in earlier rows were returned too.
* `receiveTx_scanned` — the whole call.
-/

import CloudTwin.Sqs.Messages

namespace CloudTwin.Sqs

open Lib

set_option linter.unusedSectionVars false

section External

variable [External]

/-- **What a turn of the loop can do.** -/
inductive Turn (poll : Poll) (id : Nat) (row : MessageRow) (scan : Scan) : Scan → Prop
  | skipped (blocked : groupBlocked poll scan.blocked row = true) : Turn poll id row scan scan
  | redriven {dlq : SqsQueue} {max : Int}
      (unblocked : groupBlocked poll scan.blocked row = false)
      (target : poll.dlq = some (dlq, max)) (reached : max ≤ row.receiveCount)
      (free : handleTaken scan.store.messages id (pendingHandle scan.store.drawn) = false) :
      Turn poll id row scan (scanRedriving poll dlq scan id row (pendingHandle scan.store.drawn))
  | delivered
      (unblocked : groupBlocked poll scan.blocked row = false)
      (within : ∀ dlq max, poll.dlq = some (dlq, max) → (row.receiveCount : Int) < max)
      (free : handleTaken scan.store.messages id
        (newReceiptHandle poll.queue.name row.messageId scan.store.drawn) = false) :
      Turn poll id row scan (scanDelivering poll scan id row
        (newReceiptHandle poll.queue.name row.messageId scan.store.drawn))

theorem deliver_turn {poll : Poll} {id : Nat} {row : MessageRow} {scan after : Scan}
    (unblocked : groupBlocked poll scan.blocked row = false)
    (within : ∀ dlq max, poll.dlq = some (dlq, max) → (row.receiveCount : Int) < max)
    (done : deliver poll scan id row = .ok after) : Turn poll id row scan after := by
  unfold deliver at done
  simp only at done
  split at done
  · cases done
  · rename_i free
    cases done
    exact Turn.delivered unblocked within (Bool.eq_false_iff.mpr free)

theorem scanCandidate_turn {poll : Poll} {id : Nat} {row : MessageRow} {scan after : Scan}
    (done : scanCandidate poll scan id row = .ok after) : Turn poll id row scan after := by
  unfold scanCandidate at done
  by_cases blocked : groupBlocked poll scan.blocked row = true
  · rw [if_pos blocked] at done
    cases done
    exact Turn.skipped blocked
  · rw [if_neg blocked] at done
    have unblocked := Bool.eq_false_iff.mpr blocked
    cases target : poll.dlq with
    | none =>
      rw [target] at done
      exact deliver_turn unblocked (fun dlq max here => by rw [target] at here; cases here) done
    | some found =>
      obtain ⟨dlq, max⟩ := found
      rw [target] at done
      simp only at done
      by_cases reached : max ≤ (row.receiveCount : Int)
      · rw [if_pos reached] at done
        unfold redriveMessage at done
        simp only at done
        split at done
        · cases done
        · rename_i free
          cases done
          exact Turn.redriven unblocked target reached (Bool.eq_false_iff.mpr free)
      · rw [if_neg reached] at done
        refine deliver_turn unblocked (fun other limit here => ?_) done
        rw [target] at here
        cases here
        exact not_le.mp reached

/-- **The rule for the loop.** The invariant speaks about the candidates that had their turn, those
that have not, and where the loop stands. -/
theorem scan_rule (Inv : List (Nat × MessageRow) → List (Nat × MessageRow) → Scan → Prop)
    {poll : Poll} (rest : List (Nat × MessageRow)) :
    ∀ (past : List (Nat × MessageRow)) (scan final : Scan),
      (∀ past id row rest scan after, Inv past ((id, row) :: rest) scan →
        Turn poll id row scan after → Inv (past ++ [(id, row)]) rest after) →
      Inv past rest scan → scanCandidates poll rest scan = .ok final →
      ∃ seen unseen, past ++ rest = seen ++ unseen ∧ Inv seen unseen final ∧
        (unseen = [] ∨ poll.options.max ≤ (final.received.deliveries.length : Int)) := by
  induction rest with
  | nil =>
    intro past scan final _ inv done
    cases done
    exact ⟨past, [], rfl, inv, Or.inl rfl⟩
  | cons candidate rest ih =>
    obtain ⟨id, row⟩ := candidate
    intro past scan final turn inv done
    unfold scanCandidates at done
    by_cases enough : poll.options.max ≤ (scan.received.deliveries.length : Int)
    · rw [if_pos enough] at done
      cases done
      exact ⟨past, (id, row) :: rest, rfl, inv, Or.inr enough⟩
    · rw [if_neg enough] at done
      cases one : scanCandidate poll scan id row with
      | error error =>
        rw [one] at done
        cases done
      | ok after =>
        rw [one] at done
        have turned := turn past id row rest scan after inv (scanCandidate_turn one)
        obtain ⟨seen, unseen, whole, rest⟩ := ih (past ++ [(id, row)]) after final turn turned done
        exact ⟨seen, unseen, by rw [← whole, List.append_assoc]; rfl, rest⟩

/-! ### One row -/

/-- **What the loop does to a row**: it is left alone, returned once, or moved once. -/
inductive Fate (poll : Poll) (start : Store) (past : List (Nat × MessageRow)) (id : Nat)
    (scan : Scan) : Prop
  | left (same : scan.store.messages.get id = start.messages.get id)
      (notDelivered : ∀ delivery ∈ scan.received.deliveries, delivery.row ≠ id)
      (notRedriven : ∀ dlq, (id, dlq) ∉ scan.received.redriven)
  | delivered {row : MessageRow} {draw : Nat} (was : start.messages.get id = some row)
      (turned : (id, row) ∈ past)
      (after : scan.store.messages.get id =
        some (deliveredRow poll (newReceiptHandle poll.queue.name row.messageId draw) row))
      (drawn : start.drawn ≤ draw ∧ draw + 2 ≤ scan.store.drawn)
      (within : ∀ dlq max, poll.dlq = some (dlq, max) → (row.receiveCount : Int) < max)
      (listed : ∃ delivery ∈ scan.received.deliveries, delivery.row = id)
      (message : ∀ delivery ∈ scan.received.deliveries, delivery.row = id → delivery.message =
        receivedMessage poll (newReceiptHandle poll.queue.name row.messageId draw) row)
      (notRedriven : ∀ dlq, (id, dlq) ∉ scan.received.redriven)
  | redriven {row : MessageRow} {draw : Nat} {dlq : SqsQueue} {max : Int}
      (was : start.messages.get id = some row) (turned : (id, row) ∈ past)
      (after : scan.store.messages.get id =
        some (redrivenRow poll dlq (pendingHandle draw) row))
      (drawn : start.drawn ≤ draw ∧ draw + 1 ≤ scan.store.drawn)
      (target : poll.dlq = some (dlq, max)) (reached : max ≤ row.receiveCount)
      (listed : (id, dlq.id) ∈ scan.received.redriven)
      (notDelivered : ∀ delivery ∈ scan.received.deliveries, delivery.row ≠ id)

/-- Where the loop stands, as far as rows are concerned. -/
structure Progress (poll : Poll) (start : Store) (past rest : List (Nat × MessageRow))
    (scan : Scan) : Prop where
  fates : ∀ id, Fate poll start past id scan
  untouched : ∀ candidate ∈ rest, start.messages.get candidate.1 = some candidate.2 ∧
    (∀ delivery ∈ scan.received.deliveries, delivery.row < candidate.1) ∧
    ∀ moved ∈ scan.received.redriven, moved.1 < candidate.1
  increasing : rest.Pairwise fun first second => first.1 < second.1
  ordered : scan.received.deliveries.Pairwise fun first second => first.row < second.row
  drawn : start.drawn ≤ scan.store.drawn
  next : scan.store.messages.next = start.messages.next
  frame : scan.store.queues = start.queues ∧ scan.store.dedup = start.dedup

/-- The rows that are still to have their turn are left alone so far. -/
theorem Progress.current {poll : Poll} {start : Store} {past rest : List (Nat × MessageRow)}
    {scan : Scan} (progress : Progress poll start past rest scan) {id : Nat} {row : MessageRow}
    (member : (id, row) ∈ rest) :
    scan.store.messages.get id = some row ∧
      (∀ delivery ∈ scan.received.deliveries, delivery.row ≠ id) ∧
      ∀ dlq, (id, dlq) ∉ scan.received.redriven := by
  obtain ⟨here, delivered, redriven⟩ := progress.untouched (id, row) member
  have notDelivered : ∀ delivery ∈ scan.received.deliveries, delivery.row ≠ id :=
    fun delivery listed => Nat.ne_of_lt (delivered delivery listed)
  have notRedriven : ∀ dlq, (id, dlq) ∉ scan.received.redriven :=
    fun dlq listed => Nat.lt_irrefl _ (redriven _ listed)
  refine ⟨?_, notDelivered, notRedriven⟩
  cases progress.fates id with
  | left same => rw [same, here]
  | delivered _ _ _ _ _ listed =>
    obtain ⟨delivery, listed, same⟩ := listed
    exact absurd same (notDelivered delivery listed)
  | redriven _ _ _ _ _ _ listed => exact absurd listed (notRedriven _)

/-- A turn keeps the fate of every other row. -/
theorem Fate.kept {poll : Poll} {start : Store} {past : List (Nat × MessageRow)}
    {turn : Nat × MessageRow} {id : Nat} {scan after : Scan} (fate : Fate poll start past id scan)
    (same : after.store.messages.get id = scan.store.messages.get id)
    (drawn : scan.store.drawn ≤ after.store.drawn)
    (delivered : ∀ delivery ∈ after.received.deliveries,
      delivery ∈ scan.received.deliveries ∨ delivery.row ≠ id)
    (grown : ∀ delivery ∈ scan.received.deliveries, delivery ∈ after.received.deliveries)
    (redriven : ∀ moved ∈ after.received.redriven,
      moved ∈ scan.received.redriven ∨ moved.1 ≠ id)
    (grownRedriven : ∀ moved ∈ scan.received.redriven, moved ∈ after.received.redriven) :
    Fate poll start (past ++ [turn]) id after := by
  have notDelivered (before : ∀ delivery ∈ scan.received.deliveries, delivery.row ≠ id) :
      ∀ delivery ∈ after.received.deliveries, delivery.row ≠ id := by
    intro delivery member
    rcases delivered delivery member with old | different
    · exact before delivery old
    · exact different
  have notRedriven (before : ∀ dlq, (id, dlq) ∉ scan.received.redriven) :
      ∀ dlq, (id, dlq) ∉ after.received.redriven := by
    intro dlq member
    rcases redriven _ member with old | different
    · exact before dlq old
    · exact different rfl
  cases fate with
  | left was noDelivery noRedrive =>
    exact Fate.left (same.trans was) (notDelivered noDelivery) (notRedriven noRedrive)
  | delivered was turned now draws within listed message noRedrive =>
    obtain ⟨delivery, member, here⟩ := listed
    refine Fate.delivered was (List.mem_append_left _ turned) (same.trans now) ⟨draws.1, draws.2.trans drawn⟩ within
      ⟨delivery, grown delivery member, here⟩ ?_ (notRedriven noRedrive)
    intro other listed here
    rcases delivered other listed with old | different
    · exact message other old here
    · exact absurd here different
  | redriven was turned now draws target reached listed noDelivery =>
    exact Fate.redriven was (List.mem_append_left _ turned) (same.trans now) ⟨draws.1, draws.2.trans drawn⟩ target reached
      (grownRedriven _ listed) (notDelivered noDelivery)

theorem Progress.turn {poll : Poll} {start : Store} {past rest : List (Nat × MessageRow)}
    {id : Nat} {row : MessageRow} {scan after : Scan}
    (progress : Progress poll start past ((id, row) :: rest) scan)
    (turn : Turn poll id row scan after) :
    Progress poll start (past ++ [(id, row)]) rest after := by
  obtain ⟨here, noDelivery, noRedrive⟩ := progress.current List.mem_cons_self
  obtain ⟨increasingHead, increasing⟩ := List.pairwise_cons.mp progress.increasing
  have was := (progress.untouched _ List.mem_cons_self).1
  have before := (progress.untouched _ List.mem_cons_self).2
  have turned : (id, row) ∈ past ++ [(id, row)] :=
    List.mem_append_right _ (List.mem_singleton_self _)
  have untouched : ∀ candidate ∈ rest, start.messages.get candidate.1 = some candidate.2 ∧
      (∀ delivery ∈ scan.received.deliveries, delivery.row < candidate.1) ∧
      ∀ moved ∈ scan.received.redriven, moved.1 < candidate.1 :=
    fun candidate member => progress.untouched candidate (List.mem_cons_of_mem _ member)
  cases turn with
  | skipped blocked =>
    exact ⟨fun other => (progress.fates other).kept rfl le_rfl (fun _ member => Or.inl member)
        (fun _ member => member) (fun _ member => Or.inl member) (fun _ member => member),
      untouched, increasing, progress.ordered, progress.drawn, progress.next, progress.frame⟩
  | @redriven dlq max unblocked target reached free =>
    refine ⟨fun other => ?_, fun candidate member => ?_, increasing, progress.ordered,
      Nat.le_succ_of_le progress.drawn, progress.next, progress.frame⟩
    · by_cases same : other = id
      · subst same
        refine Fate.redriven was turned ?_ ⟨progress.drawn, le_rfl⟩ target reached ?_ noDelivery
        · show (scan.store.messages.modify other _).get other = _
          rw [Table.get_modify, if_pos rfl, here]
          rfl
        · exact List.mem_append_right _ (List.mem_singleton_self _)
      · refine (progress.fates other).kept ?_ (Nat.le_succ _) (fun _ member => Or.inl member)
          (fun _ member => member) (fun moved member => ?_)
          (fun _ member => List.mem_append_left _ member)
        · show (scan.store.messages.modify id _).get other = _
          rw [Table.get_modify, if_neg same]
        · rcases List.mem_append.mp member with old | new
          · exact Or.inl old
          · rw [List.mem_singleton.mp new]
            exact Or.inr fun equal => same equal.symm
    · obtain ⟨found, delivered, redriven⟩ := untouched candidate member
      refine ⟨found, delivered, fun moved listed => ?_⟩
      rcases List.mem_append.mp listed with old | new
      · exact redriven moved old
      · rw [List.mem_singleton.mp new]
        exact increasingHead candidate member
  | delivered unblocked within free =>
    refine ⟨fun other => ?_, fun candidate member => ?_, increasing, ?_,
      Nat.le_add_right_of_le progress.drawn, progress.next, progress.frame⟩
    · by_cases same : other = id
      · subst same
        refine Fate.delivered was turned ?_ ⟨progress.drawn, le_rfl⟩ within
          ⟨_, List.mem_append_right _ (List.mem_singleton_self _), rfl⟩ ?_ noRedrive
        · show (scan.store.messages.modify other _).get other = _
          rw [Table.get_modify, if_pos rfl, here]
          rfl
        · intro delivery listed sameRow
          rcases List.mem_append.mp listed with old | new
          · exact absurd sameRow (noDelivery delivery old)
          · rw [List.mem_singleton.mp new]
      · refine (progress.fates other).kept ?_ (Nat.le_add_right _ _) (fun delivery member => ?_)
          (fun _ member => List.mem_append_left _ member) (fun _ member => Or.inl member)
          (fun _ member => member)
        · show (scan.store.messages.modify id _).get other = _
          rw [Table.get_modify, if_neg same]
        · rcases List.mem_append.mp member with old | new
          · exact Or.inl old
          · rw [List.mem_singleton.mp new]
            exact Or.inr fun equal => same equal.symm
    · obtain ⟨found, delivered, redriven⟩ := untouched candidate member
      refine ⟨found, fun delivery listed => ?_, redriven⟩
      rcases List.mem_append.mp listed with old | new
      · exact delivered delivery old
      · rw [List.mem_singleton.mp new]
        exact increasingHead candidate member
    · refine List.pairwise_append.mpr ⟨progress.ordered, List.pairwise_singleton _ _, ?_⟩
      intro delivery member last memberLast
      rw [List.mem_singleton.mp memberLast]
      exact before.1 delivery member

/-! ### Groups -/

/-- The loop has returned the message of the row. -/
def Scan.Returned (scan : Scan) (id : Nat) : Prop :=
  ∃ delivery ∈ scan.received.deliveries, delivery.row = id

/-- The loop has moved the message of the row. -/
def Scan.Moved (scan : Scan) (id : Nat) : Prop :=
  ∃ dlq, (id, dlq) ∈ scan.received.redriven

/-- The message waits for its group: the group was blocked when the loop began, or an earlier message
of it was moved. -/
def Waits (poll : Poll) (start : Scan) (past : List (Nat × MessageRow)) (scan : Scan)
    (candidate : Nat × MessageRow) : Prop :=
  poll.queue.isFifo = true ∧ ∃ group, candidate.2.groupId = some group ∧
    (group ∈ start.blocked ∨ ∃ earlier ∈ past, earlier.1 < candidate.1 ∧
      earlier.2.groupId = some group ∧ scan.Moved earlier.1)

/-- Where the loop stands, as far as groups are concerned. -/
structure GroupTurns (poll : Poll) (start : Scan) (past rest : List (Nat × MessageRow))
    (scan : Scan) : Prop where
  increasing : (past ++ rest).Pairwise fun first second => first.1 < second.1
  grows : ∀ group ∈ start.blocked, group ∈ scan.blocked
  cause : ∀ group ∈ scan.blocked, group ∈ start.blocked ∨
    ∃ candidate ∈ past, candidate.2.groupId = some group ∧ scan.Moved candidate.1
  blocks : poll.queue.isFifo = true → ∀ candidate ∈ past, scan.Moved candidate.1 →
    ∀ group, candidate.2.groupId = some group → group ∈ scan.blocked
  handled : ∀ candidate ∈ past, Waits poll start past scan candidate ∨
    scan.Returned candidate.1 ∨ scan.Moved candidate.1
  inOrder : poll.queue.isFifo = true → ∀ candidate ∈ past, scan.Returned candidate.1 →
    ∀ group, candidate.2.groupId = some group → group ∉ start.blocked ∧
      ∀ earlier ∈ past, earlier.1 < candidate.1 → earlier.2.groupId = some group →
        scan.Returned earlier.1

theorem groupBlocked_iff {poll : Poll} {blocked : List String} {row : MessageRow} {group : String}
    (fifo : poll.queue.isFifo = true) (named : row.groupId = some group) :
    groupBlocked poll blocked row = true ↔ group ∈ blocked := by
  simp [groupBlocked, named, fifo]

theorem groupBlocked_named {poll : Poll} {blocked : List String} {row : MessageRow}
    (here : groupBlocked poll blocked row = true) :
    poll.queue.isFifo = true ∧ ∃ group, row.groupId = some group ∧ group ∈ blocked := by
  unfold groupBlocked at here
  cases named : row.groupId with
  | none => simp [named] at here
  | some group =>
    simp only [named, Bool.and_eq_true, List.contains_iff_mem] at here
    exact ⟨here.1, group, rfl, here.2⟩

theorem scanRedriving_blocked {poll : Poll} {dlq : SqsQueue} {scan : Scan} {id : Nat}
    {row : MessageRow} {handle : String} {group : String} :
    group ∈ (scanRedriving poll dlq scan id row handle).blocked ↔
      group ∈ scan.blocked ∨ (poll.queue.isFifo = true ∧ row.groupId = some group) := by
  unfold scanRedriving
  cases named : row.groupId with
  | none => simp
  | some other =>
    by_cases fifo : poll.queue.isFifo = true
    · simp only [fifo, if_true, List.mem_cons, true_and, Option.some.injEq]
      constructor
      · rintro (rfl | old)
        · exact Or.inr rfl
        · exact Or.inl old
      · rintro (old | rfl)
        · exact Or.inr old
        · exact Or.inl rfl
    · simp [fifo]

/-- A message goes on waiting. -/
theorem Waits.grow {poll : Poll} {start scan after : Scan} {past : List (Nat × MessageRow)}
    {turn candidate : Nat × MessageRow} (waits : Waits poll start past scan candidate)
    (moved : ∀ id, scan.Moved id → after.Moved id) :
    Waits poll start (past ++ [turn]) after candidate := by
  obtain ⟨fifo, group, named, old | ⟨earlier, member, less, same, listed⟩⟩ := waits
  · exact ⟨fifo, group, named, Or.inl old⟩
  · exact ⟨fifo, group, named, Or.inr
      ⟨earlier, List.mem_append_left _ member, less, same, moved _ listed⟩⟩

/-- The rows before a candidate, once it had its turn. -/
theorem inOrder_grow {past : List (Nat × MessageRow)} {id : Nat} {row : MessageRow}
    {candidate : Nat × MessageRow} {group : String} {returned after : Nat → Prop}
    (before : candidate.1 < id) (grown : ∀ other, returned other → after other)
    (earlier : ∀ other ∈ past, other.1 < candidate.1 → other.2.groupId = some group →
      returned other.1) :
    ∀ other ∈ past ++ [(id, row)], other.1 < candidate.1 → other.2.groupId = some group →
      after other.1 := by
  intro other member less same
  rcases List.mem_append.mp member with old | new
  · exact grown _ (earlier other old less same)
  · rw [List.mem_singleton.mp new] at less
    exact absurd before (Nat.lt_asymm less)

section Turns

variable {poll : Poll} {start : Scan} {past rest : List (Nat × MessageRow)} {id : Nat}
  {row : MessageRow} {scan : Scan}

theorem GroupTurns.moves_on (turns : GroupTurns poll start past ((id, row) :: rest) scan) :
    ((past ++ [(id, row)]) ++ rest).Pairwise fun first second => first.1 < second.1 := by
  rw [List.append_assoc]
  exact turns.increasing

/-- The rows that had their turn come before this one. -/
theorem GroupTurns.before (turns : GroupTurns poll start past ((id, row) :: rest) scan) :
    ∀ candidate ∈ past, candidate.1 < id := fun candidate member =>
  (List.pairwise_append.mp turns.increasing).2.2 candidate member (id, row) List.mem_cons_self

theorem GroupTurns.skipped (turns : GroupTurns poll start past ((id, row) :: rest) scan)
    (notReturned : ¬ scan.Returned id) (notMoved : ¬ scan.Moved id)
    (blocked : groupBlocked poll scan.blocked row = true) :
    GroupTurns poll start (past ++ [(id, row)]) rest scan := by
  obtain ⟨fifo, group, named, member⟩ := groupBlocked_named blocked
  refine ⟨turns.moves_on, turns.grows, fun other listed => ?_, fun _ candidate listed moved => ?_,
    fun candidate listed => ?_, fun _ candidate listed returned other same => ?_⟩
  · rcases turns.cause other listed with old | ⟨candidate, past, rest⟩
    · exact Or.inl old
    · exact Or.inr ⟨candidate, List.mem_append_left _ past, rest⟩
  · rcases List.mem_append.mp listed with old | new
    · exact turns.blocks fifo candidate old moved
    · rw [List.mem_singleton.mp new] at moved
      exact absurd moved notMoved
  · rcases List.mem_append.mp listed with old | new
    · rcases turns.handled candidate old with waits | rest
      · exact Or.inl (waits.grow fun _ moved => moved)
      · exact Or.inr rest
    · rw [List.mem_singleton.mp new]
      rcases turns.cause group member with old | ⟨earlier, listed, same, moved⟩
      · exact Or.inl ⟨fifo, group, named, Or.inl old⟩
      · exact Or.inl ⟨fifo, group, named, Or.inr
          ⟨earlier, List.mem_append_left _ listed, turns.before earlier listed, same, moved⟩⟩
  · rcases List.mem_append.mp listed with old | new
    · obtain ⟨fresh, earlier⟩ := turns.inOrder fifo candidate old returned other same
      exact ⟨fresh, inOrder_grow (turns.before candidate old) (fun _ known => known) earlier⟩
    · rw [List.mem_singleton.mp new] at returned
      exact absurd returned notReturned

/-- A message that is moved blocks its group. -/
theorem GroupTurns.redriven (turns : GroupTurns poll start past ((id, row) :: rest) scan)
    (notReturned : ¬ scan.Returned id) (dlq : SqsQueue) (handle : String) :
    GroupTurns poll start (past ++ [(id, row)]) rest
      (scanRedriving poll dlq scan id row handle) := by
  let next := scanRedriving poll dlq scan id row handle
  have moved : ∀ other, scan.Moved other → next.Moved other :=
    fun other ⟨target, listed⟩ => ⟨target, List.mem_append_left _ listed⟩
  have movedHere : next.Moved id :=
    ⟨dlq.id, List.mem_append_right _ (List.mem_singleton_self _)⟩
  have back : ∀ other, next.Moved other → scan.Moved other ∨ other = id := by
    rintro other ⟨target, listed⟩
    rcases List.mem_append.mp listed with old | new
    · exact Or.inl ⟨target, old⟩
    · exact Or.inr (congrArg Prod.fst (List.mem_singleton.mp new))
  have grown : ∀ group ∈ scan.blocked, group ∈ next.blocked :=
    fun group member => scanRedriving_blocked.mpr (Or.inl member)
  refine ⟨turns.moves_on, fun group member => grown group (turns.grows group member),
    fun group member => ?_, fun fifo candidate listed movedNow group named => ?_,
    fun candidate listed => ?_, fun fifo candidate listed returned group named => ?_⟩
  · rcases scanRedriving_blocked.mp member with old | ⟨_, named⟩
    · rcases turns.cause group old with old | ⟨candidate, past, named, listed⟩
      · exact Or.inl old
      · exact Or.inr ⟨candidate, List.mem_append_left _ past, named, moved _ listed⟩
    · exact Or.inr ⟨(id, row), List.mem_append_right _ (List.mem_singleton_self _), named, movedHere⟩
  · rcases List.mem_append.mp listed with old | new
    · rcases back _ movedNow with known | same
      · exact grown group (turns.blocks fifo candidate old known group named)
      · exact absurd same (Nat.ne_of_lt (turns.before candidate old))
    · rw [List.mem_singleton.mp new] at named
      exact scanRedriving_blocked.mpr (Or.inr ⟨fifo, named⟩)
  · rcases List.mem_append.mp listed with old | new
    · rcases turns.handled candidate old with waits | returned | known
      · exact Or.inl (waits.grow moved)
      · exact Or.inr (Or.inl returned)
      · exact Or.inr (Or.inr (moved _ known))
    · rw [List.mem_singleton.mp new]
      exact Or.inr (Or.inr movedHere)
  · rcases List.mem_append.mp listed with old | new
    · obtain ⟨fresh, earlier⟩ := turns.inOrder fifo candidate old returned group named
      exact ⟨fresh, inOrder_grow (turns.before candidate old) (fun _ known => known) earlier⟩
    · rw [List.mem_singleton.mp new] at returned
      exact absurd returned notReturned

theorem GroupTurns.delivered (turns : GroupTurns poll start past ((id, row) :: rest) scan)
    (notMoved : ¬ scan.Moved id) (unblocked : groupBlocked poll scan.blocked row = false)
    (handle : String) :
    GroupTurns poll start (past ++ [(id, row)]) rest (scanDelivering poll scan id row handle) := by
  let next := scanDelivering poll scan id row handle
  have returned : ∀ other, scan.Returned other → next.Returned other :=
    fun other ⟨delivery, listed, same⟩ => ⟨delivery, List.mem_append_left _ listed, same⟩
  have returnedHere : next.Returned id :=
    ⟨_, List.mem_append_right _ (List.mem_singleton_self _), rfl⟩
  have back : ∀ other, next.Returned other → scan.Returned other ∨ other = id := by
    rintro other ⟨delivery, listed, same⟩
    rcases List.mem_append.mp listed with old | new
    · exact Or.inl ⟨delivery, old, same⟩
    · rw [List.mem_singleton.mp new] at same
      exact Or.inr same.symm
  refine ⟨turns.moves_on, turns.grows, fun group member => ?_,
    fun fifo candidate listed moved group named => ?_, fun candidate listed => ?_,
    fun fifo candidate listed returnedNow group named => ?_⟩
  · rcases turns.cause group member with old | ⟨candidate, past, rest⟩
    · exact Or.inl old
    · exact Or.inr ⟨candidate, List.mem_append_left _ past, rest⟩
  · rcases List.mem_append.mp listed with old | new
    · exact turns.blocks fifo candidate old moved group named
    · rw [List.mem_singleton.mp new] at moved
      exact absurd moved notMoved
  · rcases List.mem_append.mp listed with old | new
    · rcases turns.handled candidate old with waits | known | moved
      · exact Or.inl (waits.grow fun _ moved => moved)
      · exact Or.inr (Or.inl (returned _ known))
      · exact Or.inr (Or.inr moved)
    · rw [List.mem_singleton.mp new]
      exact Or.inr (Or.inl returnedHere)
  · rcases List.mem_append.mp listed with old | new
    · have known : scan.Returned candidate.1 := by
        rcases back _ returnedNow with known | same
        · exact known
        · exact absurd same (Nat.ne_of_lt (turns.before candidate old))
      obtain ⟨fresh, earlier⟩ := turns.inOrder fifo candidate old known group named
      exact ⟨fresh, inOrder_grow (turns.before candidate old) returned earlier⟩
    · rw [List.mem_singleton.mp new] at named ⊢
      -- The group is free, so its candidates so far neither wait nor were moved.
      have free : group ∉ scan.blocked := by
        rw [← groupBlocked_iff fifo named, unblocked]
        exact Bool.false_ne_true
      refine ⟨fun member => free (turns.grows group member), fun other memberOther _ same => ?_⟩
      rcases List.mem_append.mp memberOther with oldOther | newOther
      · rcases turns.handled other oldOther with ⟨_, waited, known, cause⟩ | known | moved
        · rw [same] at known
          cases known
          rcases cause with old | ⟨earlier, listed, _, sameGroup, moved⟩
          · exact absurd (turns.grows group old) free
          · exact absurd (turns.blocks fifo earlier listed moved group sameGroup) free
        · exact returned _ known
        · exact absurd (turns.blocks fifo other oldOther moved group same) free
      · rw [List.mem_singleton.mp newOther]
        exact returnedHere

theorem GroupTurns.turn {after : Scan}
    (turns : GroupTurns poll start past ((id, row) :: rest) scan)
    (notReturned : ¬ scan.Returned id) (notMoved : ¬ scan.Moved id)
    (turn : Turn poll id row scan after) :
    GroupTurns poll start (past ++ [(id, row)]) rest after := by
  cases turn with
  | skipped blocked => exact turns.skipped notReturned notMoved blocked
  | @redriven dlq => exact turns.redriven notReturned dlq _
  | delivered unblocked => exact turns.delivered notMoved unblocked _

end Turns

/-! ### The whole call -/

/-- The groups that are blocked when the loop begins are those of messages in flight. -/
theorem mem_blockedGroups {store : Store} {queue : SqsQueue} {now : Int} {group : String}
    (member : group ∈ blockedGroups store queue now) :
    ∃ id row, (store.messages.get id = some row ∧ row.queueId = queue.id ∧ now < row.visibleAt ∧
      0 < row.receiveCount) ∧ row.groupId = some group := by
  unfold blockedGroups at member
  split at member
  · obtain ⟨⟨id, row⟩, listed, named⟩ := List.mem_filterMap.mp member
    obtain ⟨here, flying⟩ := (Table.mem_select _ _ _ _).mp listed
    simp only [Bool.and_eq_true, beq_iff_eq, decide_eq_true_eq] at flying
    exact ⟨id, row, ⟨here, flying.1.1, flying.1.2, flying.2⟩, named⟩
  · cases member

/-- **What `receive_tx` does**, in terms of the candidates that had their turn. -/
structure Scanned (store : Store) (queue : SqsQueue) (options : ReceiveOptions) (now : Int)
    (seen unseen : List (Nat × MessageRow)) (final : Scan) : Prop where
  whole : candidates (refresh store queue now) queue now = seen ++ unseen
  progress : Progress (pollOf (refresh store queue now) queue options now)
    (refresh store queue now) seen unseen final
  turns : GroupTurns (pollOf (refresh store queue now) queue options now)
    (scanStart (refresh store queue now) queue now) seen unseen final
  finished : unseen = [] ∨ options.max ≤ (final.received.deliveries.length : Int)

theorem candidates_ordered (store : Store) (queue : SqsQueue) (now : Int) :
    (candidates store queue now).Pairwise fun first second => first.1 < second.1 :=
  Table.select_ordered store.messages _

theorem progress_start {store : Store} {queue : SqsQueue} {poll : Poll} {now : Int} :
    Progress poll store [] (candidates store queue now) (scanStart store queue now) := by
  refine ⟨fun id => ?_, fun candidate member => ⟨?_, ?_, ?_⟩, candidates_ordered _ _ _,
    List.Pairwise.nil, le_rfl, rfl, rfl, rfl⟩
  · exact Fate.left rfl (fun _ listed => (List.not_mem_nil listed).elim) fun _ => List.not_mem_nil
  · exact ((Table.mem_select _ _ _ _).mp member).1
  · exact fun _ listed => (List.not_mem_nil listed).elim
  · exact fun _ listed => (List.not_mem_nil listed).elim

theorem groupTurns_start {store : Store} {queue : SqsQueue} {poll : Poll} {now : Int} :
    GroupTurns poll (scanStart store queue now) [] (candidates store queue now)
      (scanStart store queue now) := by
  refine ⟨?_, fun _ member => member, fun _ member => Or.inl member,
    fun _ _ member => ?_, fun _ member => ?_, fun _ _ member => ?_⟩
  · exact candidates_ordered store queue now
  · cases member
  · cases member
  · cases member

theorem receiveTx_scanned {store after : Store} {queue : SqsQueue} {options : ReceiveOptions}
    {now : Int} {received : Received}
    (done : receiveTx store queue options now = .ok (received, after)) :
    ∃ seen unseen final, Scanned store queue options now seen unseen final ∧
      final.store = after ∧ final.received = received := by
  unfold receiveTx at done
  obtain ⟨final, looped, rest⟩ := bind_ok done
  cases rest
  let refreshed := refresh store queue now
  let poll := pollOf refreshed queue options now
  let start := scanStart refreshed queue now
  obtain ⟨seen, unseen, whole, ⟨progress, turns⟩, finished⟩ := scan_rule
    (fun past rest scan =>
      Progress poll refreshed past rest scan ∧ GroupTurns poll start past rest scan)
    (candidates refreshed queue now) [] start final
    (fun past id row rest scan after inv turn => ⟨inv.1.turn turn, inv.2.turn
      (fun ⟨delivery, listed, same⟩ =>
        (inv.1.current List.mem_cons_self).2.1 delivery listed same)
      (fun ⟨dlq, listed⟩ => (inv.1.current List.mem_cons_self).2.2 dlq listed) turn⟩)
    ⟨progress_start, groupTurns_start⟩ looped
  exact ⟨seen, unseen, final, ⟨whole, progress, turns, finished⟩, rfl, rfl⟩

end External

end CloudTwin.Sqs
