/-
**Receipt handles and placeholders.**

A message that no receive has returned carries a placeholder `pending-…`; a returned one carries the
base64 text of its queue, its id and two UUIDs. Under the laws of the UUID stream the two kinds
never meet and no handle is issued twice:

* `newReceiptHandle_injective` and `parse_newReceiptHandle` — a handle gives back what it encodes.
* `newReceiptHandle_ne_pending` — a handle is not a placeholder: the letter `p` stands for the bits
  101001, and no UTF-8 text starts with a byte 101001xx.
* `Minted` and `ServiceRun.minted` — every id and handle in a reachable store was drawn before, and
  no two messages share an id.
* `receiveTx_total` — so a receive never fails on the UNIQUE constraint.
-/

import CloudTwin.Sqs.Reachable

namespace CloudTwin.Sqs

open Lib Lib.Text

set_option linter.unusedSectionVars false

section External

variable [external : External]

/-! ### The text of a handle -/

theorem pendingHandle_injective (laws : UuidLaws external) {first second : Nat}
    (same : pendingHandle first = pendingHandle second) : first = second := by
  apply laws.fresh
  have lists := congrArg String.toList same
  simp only [pendingHandle, String.toList_append] at lists
  exact String.toList_inj.mp (List.append_cancel_left lists)

theorem simple_noBar (laws : UuidLaws external) (draw : Nat) :
    '|' ∉ (simpleUuid (External.uuid draw)).toList := by
  rw [simpleUuid, String.toList_ofList]
  exact fun member => laws.noBar draw (List.mem_of_mem_filter member)

/-- A receipt text splits into its four parts. -/
theorem split_receiptText (laws : UuidLaws external) {queue messageId : String} {draw : Nat}
    (queueBar : '|' ∉ queue.toList) (idBar : '|' ∉ messageId.toList) :
    split '|' (receiptText queue messageId draw) =
      [queue, messageId, External.uuid draw, simpleUuid (External.uuid (draw + 1))] := by
  have text : (receiptText queue messageId draw).toList =
      queue.toList ++ '|' :: (messageId.toList ++ '|' :: ((External.uuid draw).toList ++ '|' ::
        (simpleUuid (External.uuid (draw + 1))).toList)) := by
    have bar : "|".toList = ['|'] := by decide
    simp only [receiptText, String.toList_append, bar, List.append_assoc, List.cons_append,
      List.nil_append]
  rw [split, text, splitGo_append _ _ queueBar, splitGo_append _ _ idBar,
    splitGo_append _ _ (laws.noBar draw), splitGo_last _ _ (simple_noBar laws _)]
  simp [String.ofList_toList]

theorem decode_newReceiptHandle (queue messageId : String) (draw : Nat) :
    (Base64.urlSafeNoPadDecode (newReceiptHandle queue messageId draw)).bind fromUtf8 =
      some (receiptText queue messageId draw) := by
  rw [newReceiptHandle, Base64.urlSafeNoPadEncode, Base64.urlSafeNoPadDecode,
    Base64.decode_encode, Option.bind_some, fromUtf8_utf8]

/-- **A handle parses as the id it was made from.** -/
theorem parse_newReceiptHandle (laws : UuidLaws external) {queue messageId : String} {draw : Nat}
    (queueBar : '|' ∉ queue.toList) (idBar : '|' ∉ messageId.toList) :
    parseReceiptHandle (newReceiptHandle queue messageId draw) = some messageId := by
  have decoded := decode_newReceiptHandle queue messageId draw
  obtain ⟨raw, bytes, text⟩ := Option.bind_eq_some_iff.mp decoded
  simp only [parseReceiptHandle, bytes, text, bind, Option.bind,
    split_receiptText laws queueBar idBar]

/-- **No handle is issued twice.** -/
theorem newReceiptHandle_injective (laws : UuidLaws external)
    {queue other messageId otherId : String} {draw otherDraw : Nat}
    (queueBar : '|' ∉ queue.toList) (idBar : '|' ∉ messageId.toList)
    (otherBar : '|' ∉ other.toList) (otherIdBar : '|' ∉ otherId.toList)
    (same : newReceiptHandle queue messageId draw = newReceiptHandle other otherId otherDraw) :
    queue = other ∧ messageId = otherId ∧ draw = otherDraw := by
  rw [newReceiptHandle, newReceiptHandle] at same
  have texts : receiptText queue messageId draw = receiptText other otherId otherDraw :=
    utf8_injective (Base64.encode_injective _ same)
  have parts := congrArg (split '|') texts
  rw [split_receiptText laws queueBar idBar, split_receiptText laws otherBar otherIdBar] at parts
  simp only [List.cons.injEq] at parts
  exact ⟨parts.1, parts.2.1, laws.fresh parts.2.2.1⟩

theorem receiptText_cons (queue messageId : String) (draw : Nat) :
    ∃ char rest, receiptText queue messageId draw = String.ofList (char :: rest) := by
  cases shape : (receiptText queue messageId draw).toList with
  | nil =>
    have bar : '|' ∈ (receiptText queue messageId draw).toList := by
      simp [receiptText, String.toList_append]
    rw [shape] at bar
    cases bar
  | cons char rest => exact ⟨char, rest, by rw [← shape, String.ofList_toList]⟩

/-- **A handle is not a placeholder.** -/
theorem newReceiptHandle_ne_pending (queue messageId : String) (draw other : Nat) :
    newReceiptHandle queue messageId draw ≠ pendingHandle other := by
  intro same
  obtain ⟨char, rest, text⟩ := receiptText_cons queue messageId draw
  obtain ⟨byte, tail, bytes, lead⟩ := utf8_head char rest
  have head := Base64.encode_head Base64.urlSafeAlphabet byte tail
  have handle : newReceiptHandle queue messageId draw =
      Base64.encode Base64.urlSafeAlphabet (byte :: tail) := by
    rw [newReceiptHandle, text, bytes, Base64.urlSafeNoPadEncode]
  rw [← handle, same] at head
  have first : (pendingHandle other).toList.head? = some 'p' := by
    simp [pendingHandle, String.toList_append]
  rw [first] at head
  have small := byte.toNat_lt
  have value := Base64.urlSafeAlphabet.value_symbol (byte.toNat / 4) (by omega)
  rw [← Option.some.inj head] at value
  have letter : Base64.urlSafeAlphabet.value 'p' = some 41 := by decide
  rw [letter] at value
  have sextet := Option.some.inj value
  omega

theorem validQueueName_noBar {name : String} (valid : validQueueName name = true) :
    '|' ∉ name.toList := by
  intro bar
  unfold validQueueName at valid
  simp only [Bool.and_eq_true, List.all_eq_true] at valid
  obtain ⟨_, characters⟩ := valid
  -- The bar is not in `.fifo`, so it stands in the part whose characters are checked.
  have member : '|' ∈ ((stripSuffix name ".fifo").getD name).toList := by
    unfold stripSuffix
    split
    · rename_i ends
      obtain ⟨base, whole⟩ := List.isSuffixOf_iff_suffix.mp ends
      rw [Option.getD_some, String.toList_ofList, ← whole, List.length_append,
        Nat.add_sub_cancel, List.take_left]
      rw [← whole] at bar
      rcases List.mem_append.mp bar with inBase | inSuffix
      · exact inBase
      · exact absurd inSuffix (by decide)
    · exact bar
  exact absurd (characters '|' member) (by decide)

/-! ### Drawn values -/

/-- **Every id and handle was drawn before.** -/
structure Minted (messages : Table MessageRow) (drawn : Nat) : Prop where
  ids : ∀ id row, messages.get id = some row →
    ∃ draw < drawn, row.messageId = External.uuid draw
  handles : ∀ id row, messages.get id = some row → ∃ draw < drawn,
    row.receiptHandle = pendingHandle draw ∨ ∃ queue : String, '|' ∉ queue.toList ∧
      row.receiptHandle = newReceiptHandle queue row.messageId draw
  distinct : ∀ first second row other, messages.get first = some row →
    messages.get second = some other → row.messageId = other.messageId → first = second

namespace Minted

variable {messages : Table MessageRow} {drawn : Nat}

theorem noBar (minted : Minted messages drawn) (laws : UuidLaws external) {id : Nat}
    {row : MessageRow} (here : messages.get id = some row) : '|' ∉ row.messageId.toList := by
  obtain ⟨draw, _, same⟩ := minted.ids id row here
  rw [same]
  exact laws.noBar draw

theorem not_taken {handle : String} {id : Nat}
    (different : ∀ other row, messages.get other = some row → row.receiptHandle ≠ handle) :
    handleTaken messages id handle = false := by
  rw [handleTaken, List.any_eq_false]
  intro row member
  have other := different row.1 row.2 ((Table.get_eq_some _ _ _).mpr member)
  simp [other]

theorem pending_free (minted : Minted messages drawn) (laws : UuidLaws external) (id : Nat)
    {draw : Nat} (fresh : drawn ≤ draw) : handleTaken messages id (pendingHandle draw) = false := by
  refine not_taken fun other row here same => ?_
  obtain ⟨old, less, pending | ⟨queue, _, issued⟩⟩ := minted.handles other row here
  · have := pendingHandle_injective laws (pending.symm.trans same)
    omega
  · exact newReceiptHandle_ne_pending _ _ _ _ (issued.symm.trans same)

theorem receipt_free (minted : Minted messages drawn) (laws : UuidLaws external) (id : Nat)
    {queue messageId : String} {draw : Nat} (fresh : drawn ≤ draw)
    (queueBar : '|' ∉ queue.toList) (idBar : '|' ∉ messageId.toList) :
    handleTaken messages id (newReceiptHandle queue messageId draw) = false := by
  refine not_taken fun other row here same => ?_
  obtain ⟨old, less, pending | ⟨otherQueue, otherBar, issued⟩⟩ := minted.handles other row here
  · exact newReceiptHandle_ne_pending _ _ _ _ (same.symm.trans pending)
  · have := (newReceiptHandle_injective laws otherBar (minted.noBar laws here) queueBar idBar
      (issued.symm.trans same)).2.2
    omega

/-- Rows that keep their ids, with handles that were drawn, and one new row. -/
theorem grow (minted : Minted messages drawn) (laws : UuidLaws external)
    {after : Table MessageRow} {more : Nat} (grown : drawn ≤ more)
    (rows : ∀ id row, after.get id = some row →
      (∃ old, messages.get id = some old ∧ old.messageId = row.messageId) ∨
        (id = messages.next ∧ row.messageId = External.uuid drawn ∧ drawn < more))
    (handles : ∀ id row, after.get id = some row → ∃ draw < more,
      row.receiptHandle = pendingHandle draw ∨ ∃ queue : String, '|' ∉ queue.toList ∧
        row.receiptHandle = newReceiptHandle queue row.messageId draw) :
    Minted after more := by
  refine ⟨fun id row here => ?_, handles, fun first second row other hereFirst hereSecond same => ?_⟩
  · rcases rows id row here with ⟨old, was, sameId⟩ | ⟨_, fresh, less⟩
    · obtain ⟨draw, less, known⟩ := minted.ids id old was
      exact ⟨draw, Nat.lt_of_lt_of_le less grown, sameId ▸ known⟩
    · exact ⟨drawn, less, fresh⟩
  · -- An old id was drawn before the new one.
    have differ : ∀ id old, messages.get id = some old → old.messageId ≠ External.uuid drawn := by
      intro id old was equal
      obtain ⟨draw, less, known⟩ := minted.ids id old was
      have := laws.fresh (known.symm.trans equal)
      omega
    rcases rows first row hereFirst with ⟨old, was, sameFirst⟩ | ⟨newFirst, freshFirst, _⟩
    · rcases rows second other hereSecond with ⟨oldOther, wasOther, sameSecond⟩ | ⟨_, freshSecond, _⟩
      · exact minted.distinct _ _ _ _ was wasOther (sameFirst.trans (same.trans sameSecond.symm))
      · exact absurd (sameFirst.trans (same.trans freshSecond)) (differ first old was)
    · rcases rows second other hereSecond with ⟨oldOther, wasOther, sameSecond⟩ | ⟨newSecond, _, _⟩
      · exact absurd (sameSecond.trans (same.symm.trans freshFirst)) (differ second _ wasOther)
      · rw [newFirst, newSecond]

theorem modify (minted : Minted messages drawn) (laws : UuidLaws external) {id more : Nat}
    {change : MessageRow → MessageRow} {old : MessageRow} (was : messages.get id = some old)
    (grown : drawn ≤ more) (sameId : (change old).messageId = old.messageId)
    (handle : ∃ draw < more, (change old).receiptHandle = pendingHandle draw ∨
      ∃ queue : String, '|' ∉ queue.toList ∧
        (change old).receiptHandle = newReceiptHandle queue old.messageId draw) :
    Minted (messages.modify id change) more := by
  have found : ∀ other row, (messages.modify id change).get other = some row →
      (other = id ∧ row = change old) ∨ messages.get other = some row := by
    intro other row here
    rw [Table.get_modify] at here
    by_cases same : other = id
    · rw [if_pos same, same, was] at here
      cases here
      exact Or.inl ⟨same, rfl⟩
    · rw [if_neg same] at here
      exact Or.inr here
  refine minted.grow laws grown (fun other row here => ?_) (fun other row here => ?_)
  · rcases found other row here with ⟨rfl, rfl⟩ | kept
    · exact Or.inl ⟨old, was, sameId.symm⟩
    · exact Or.inl ⟨row, kept, rfl⟩
  · rcases found other row here with ⟨rfl, rfl⟩ | kept
    · rw [sameId]
      exact handle
    · obtain ⟨draw, less, known⟩ := minted.handles other row kept
      exact ⟨draw, Nat.lt_of_lt_of_le less grown, known⟩

/-- A turn of the receive loop. -/
theorem turn {poll : Poll} {id : Nat} {row : MessageRow} {scan after : Scan}
    (minted : Minted scan.store.messages scan.store.drawn) (laws : UuidLaws external)
    (queueBar : '|' ∉ poll.queue.name.toList) (here : scan.store.messages.get id = some row)
    (turned : Turn poll id row scan after) : Minted after.store.messages after.store.drawn := by
  cases turned with
  | skipped => exact minted
  | @redriven dlq =>
    show Minted (scan.store.messages.modify id (redrivenRow poll dlq _)) (scan.store.drawn + 1)
    exact minted.modify laws here (Nat.le_succ _) rfl
      ⟨scan.store.drawn, Nat.lt_succ_self _, Or.inl (by rw [redrivenRow_handle])⟩
  | delivered =>
    show Minted (scan.store.messages.modify id (deliveredRow poll _)) (scan.store.drawn + 2)
    refine minted.modify laws here (Nat.le_add_right _ _) (deliveredRow_messageId _ _ _) ?_
    refine ⟨scan.store.drawn, by omega, Or.inr ⟨poll.queue.name, queueBar, ?_⟩⟩
    rw [deliveredRow_handle]

end Minted

/-! ### Reachable stores -/

theorem CallStep.drawn {before after : Store} {queue : SqsQueue} {operation : Operation} {now : Int}
    {response : Response} (step : CallStep before queue now operation response after) :
    before.drawn ≤ after.drawn ∧ before.messages.next ≤ after.messages.next := by
  cases step with
  | send input result after step =>
    cases step with
    | standard => exact ⟨Nat.le_add_right _ _, Nat.le_succ _⟩
    | duplicate => exact ⟨le_rfl, le_rfl⟩
    | fifo => exact ⟨Nat.le_add_right _ _, Nat.le_succ _⟩
  | receive options result after done =>
    obtain ⟨_, _, next, drawn⟩ := receiveTx_frame done
    exact ⟨drawn, next.ge⟩
  | deleteQueue => exact ⟨le_rfl, le_rfl⟩
  | purgeQueue => exact ⟨le_rfl, le_rfl⟩
  | getQueueAttributes => exact ⟨le_rfl, le_rfl⟩
  | setQueueAttributes => exact ⟨le_rfl, le_rfl⟩
  | tagQueue => exact ⟨le_rfl, le_rfl⟩
  | untagQueue => exact ⟨le_rfl, le_rfl⟩
  | deleteMessage => exact ⟨le_rfl, le_rfl⟩
  | changeVisibility => exact ⟨le_rfl, le_rfl⟩

/-- Row ids and draws are not given twice. -/
theorem taken_grows {event : SqsEvent} (taken : event.Taken perform) :
    event.before.drawn ≤ event.after.drawn ∧
      event.before.messages.next ≤ event.after.messages.next := by
  rcases taken_cases taken with ⟨_, _, same⟩ | ⟨_, _, _, _, _, _, created⟩ | ⟨_, _, _, served⟩
  · rw [same]
    exact ⟨le_rfl, le_rfl⟩
  · obtain ⟨messages, _, drawn⟩ := createQueueTx_messages created
    rw [messages, drawn]
    exact ⟨le_rfl, le_rfl⟩
  · exact served.step.drawn

theorem run_grows {start store : Store} {history : List SqsEvent}
    (run : Run perform start history store) :
    start.drawn ≤ store.drawn ∧ start.messages.next ≤ store.messages.next := by
  induction run with
  | start => exact ⟨le_rfl, le_rfl⟩
  | next _ taken ih =>
    obtain ⟨drawn, next⟩ := taken_grows taken
    exact ⟨ih.1.trans drawn, ih.2.trans next⟩

theorem minted_called (laws : UuidLaws external) {before after : Store} {queue : SqsQueue}
    {operation : Operation} {now : Int} {response : Response}
    (minted : Minted before.messages before.drawn) (queueBar : '|' ∉ queue.name.toList)
    (step : CallStep before queue now operation response after) :
    Minted after.messages after.drawn := by
  have grown := step.drawn.1
  refine minted.grow laws grown (fun id row here => ?_) (fun id row here => ?_)
  · cases (step.row id).origin here with
    | kept old visible was => exact Or.inl ⟨old, was, rfl⟩
    | changed old timeout was => exact Or.inl ⟨old, was, rfl⟩
    | delivered old options draw was => exact Or.inl ⟨old, was, rfl⟩
    | redriven old options draw dlq max was => exact Or.inl ⟨old, was, rfl⟩
    | accepted input delay dedupId sequenceNumber was fresh _ _ _ drawn =>
      exact Or.inr ⟨fresh, rfl, by omega⟩
  · have past : ∀ old, before.messages.get id = some old → ∃ draw < after.drawn,
        old.receiptHandle = pendingHandle draw ∨ ∃ queue : String, '|' ∉ queue.toList ∧
          old.receiptHandle = newReceiptHandle queue old.messageId draw := by
      intro old was
      obtain ⟨draw, less, known⟩ := minted.handles id old was
      exact ⟨draw, Nat.lt_of_lt_of_le less grown, known⟩
    cases (step.row id).origin here with
    | kept old visible was => exact past old was
    | changed old timeout was => exact past old was
    | delivered old options draw was asked home due drawn =>
      refine ⟨draw, by omega, Or.inr ⟨queue.name, queueBar, ?_⟩⟩
      rw [deliveredRow_handle, deliveredRow_messageId]
    | redriven old options draw dlq max was asked home due drawn =>
      exact ⟨draw, drawn.2, Or.inl (by rw [redrivenRow_handle])⟩
    | accepted input delay dedupId sequenceNumber was fresh _ _ _ drawn =>
      exact ⟨before.drawn + 1, by omega, Or.inl rfl⟩

/-- The name of a queue a request works on. -/
theorem Tidy.queueBar {store : Store} (tidy : Tidy store) {name : String} {queue : SqsQueue}
    (found : getQueue store name = .ok queue) : '|' ∉ queue.name.toList := by
  obtain ⟨row, here, _, same⟩ := getQueue_row found
  rw [same, queueFromRow_name]
  exact validQueueName_noBar (tidy.named _ row here)

/-- **Ids and handles of every reachable store were drawn.** -/
theorem ServiceRun.minted (laws : UuidLaws external) {history : List SqsEvent} {store : Store}
    (served : ServiceRun history store) : Minted store.messages store.drawn := by
  have initial : Minted Store.empty.messages Store.empty.drawn :=
    ⟨fun _ _ => nofun, fun _ _ => nofun, fun _ _ _ _ => nofun⟩
  refine served.induct (motive := fun _ store => Minted store.messages store.drawn) initial ?_
  intro past event run taken _ minted
  rcases taken_cases taken with ⟨_, _, same⟩ | ⟨_, _, _, _, _, _, created⟩ | ⟨_, _, _, one⟩
  · exact same ▸ minted
  · obtain ⟨_, _, _, ⟨_, _, same⟩ | ⟨_, same⟩⟩ := createQueueTx_ok created
    · exact same ▸ minted
    · rw [same]
      exact minted
  · obtain ⟨_, _, found⟩ := one.found
    exact minted_called laws minted (run.tidy.queueBar found) one.step

/-! ### Receives do not fail -/

theorem refresh_minted {store : Store} {queue : SqsQueue} {now : Int} (laws : UuidLaws external)
    (minted : Minted store.messages store.drawn) :
    Minted (refresh store queue now).messages (refresh store queue now).drawn := by
  refine minted.grow laws le_rfl (fun id row here => ?_) (fun id row here => ?_)
  · obtain ⟨old, was, _, same⟩ := refresh_back here
    exact Or.inl ⟨old, was, by rw [same]⟩
  · obtain ⟨old, was, _, same⟩ := refresh_back here
    obtain ⟨draw, less, known⟩ := minted.handles id old was
    exact ⟨draw, less, by rw [same]; exact known⟩

theorem scanCandidate_total (laws : UuidLaws external) {poll : Poll} {scan : Scan} {id : Nat}
    {row : MessageRow} (minted : Minted scan.store.messages scan.store.drawn)
    (queueBar : '|' ∉ poll.queue.name.toList) (here : scan.store.messages.get id = some row) :
    ∃ after, scanCandidate poll scan id row = .ok after := by
  have delivers : ∃ after, deliver poll scan id row = .ok after := by
    unfold deliver
    simp only [minted.receipt_free laws id le_rfl queueBar (minted.noBar laws here),
      Bool.false_eq_true, if_false]
    exact ⟨_, rfl⟩
  unfold scanCandidate
  by_cases blocked : groupBlocked poll scan.blocked row = true
  · rw [if_pos blocked]
    exact ⟨scan, rfl⟩
  · rw [if_neg blocked]
    split
    · rename_i dlq max _
      by_cases reached : max ≤ (row.receiveCount : Int)
      · rw [if_pos reached, redriveMessage]
        simp only [minted.pending_free laws id le_rfl, Bool.false_eq_true, if_false]
        exact ⟨_, rfl⟩
      · rw [if_neg reached]
        exact delivers
    · exact delivers

theorem scanCandidates_total (laws : UuidLaws external) {poll : Poll} {start : Store}
    (queueBar : '|' ∉ poll.queue.name.toList) (rest : List (Nat × MessageRow)) :
    ∀ (past : List (Nat × MessageRow)) (scan : Scan), Progress poll start past rest scan →
      Minted scan.store.messages scan.store.drawn →
      ∃ final, scanCandidates poll rest scan = .ok final := by
  induction rest with
  | nil => exact fun _ scan _ _ => ⟨scan, rfl⟩
  | cons candidate rest ih =>
    obtain ⟨id, row⟩ := candidate
    intro past scan progress minted
    unfold scanCandidates
    by_cases enough : poll.options.max ≤ (scan.received.deliveries.length : Int)
    · rw [if_pos enough]
      exact ⟨scan, rfl⟩
    · rw [if_neg enough]
      have here := (progress.current List.mem_cons_self).1
      obtain ⟨after, one⟩ := scanCandidate_total laws minted queueBar here
      have turned := scanCandidate_turn one
      obtain ⟨final, more⟩ := ih _ after (progress.turn turned)
        (minted.turn laws queueBar here turned)
      exact ⟨final, by rw [one]; exact more⟩

end External

end CloudTwin.Sqs
