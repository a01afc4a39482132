/-
**Which messages belong to one mail transaction.**

The session keeps the sender and the recipients in two variables. A `MAIL FROM` sets the one and
clears the other, the end of a message and `RSET` clear only the recipients, a greeting neither; and
`RCPT TO` asks for neither. So a delivery is what the protocol says when the client keeps to the
protocol itself.

* `Delimited` — the deliveries and refusals that the protocol asks for.
* `Orderly` — what a client has to send.
* `session_delimited` — the session is delimited exactly when the client is orderly.
-/

import CloudTwin.Mailbox.Smtp

namespace CloudTwin.Mailbox

open Lib Lib.Text

/-! ### Transactions -/

/-- The exchange begins a transaction or ends one. -/
def Closes : Exchange → Prop
  | .command .hello _ => True
  | .command (.mail _) _ => True
  | .command .rset _ => True
  | .message _ _ _ => True
  | _ => False

/-- The transaction of the sender is open; `since` is what happened in it. -/
def Opened (past : List Exchange) (sender : String) (since : List Exchange) : Prop :=
  ∃ before reply, past = before ++ .command (.mail sender) reply :: since ∧
    ∀ exchange ∈ since, ¬ Closes exchange

def Open (past : List Exchange) : Prop :=
  ∃ sender since, Opened past sender since

/-- The reply accepts the command. -/
def isAccepted (reply : String) : Bool :=
  startsWith reply "250"

/-- The arguments of the `RCPT TO` commands that were accepted. -/
def acceptedRcpts (exchanges : List Exchange) : List String :=
  exchanges.filterMap fun exchange =>
    match exchange with
    | .command (.rcpt recipient) reply => if isAccepted reply then some recipient else none
    | _ => none

/-- **What the protocol asks of an exchange**, after what happened before it. -/
def Proper (past : List Exchange) : Exchange → Prop
  | .message (some delivery) ending _ => ending = .dot ∧
    ∃ since, Opened past delivery.mailFrom since ∧ delivery.rcpts = acceptedRcpts since
  | .command (.rcpt _) reply => ¬ Open past → isAccepted reply = false
  | _ => True

/-- **Every exchange of the session is proper.** -/
def Delimited (past exchanges : List Exchange) : Prop :=
  ∀ before exchange after, exchanges = before ++ exchange :: after →
    Proper (past ++ before) exchange

theorem delimited_cons {past rest : List Exchange} {exchange : Exchange} :
    Delimited past (exchange :: rest) ↔
      Proper past exchange ∧ Delimited (past ++ [exchange]) rest := by
  constructor
  · intro delimited
    refine ⟨?_, fun before other after same => ?_⟩
    · have here := delimited [] exchange rest rfl
      rwa [List.append_nil] at here
    · have later := delimited (exchange :: before) other after (by rw [same]; rfl)
      rwa [List.append_cons] at later
  · rintro ⟨proper, delimited⟩ before other after same
    cases before with
    | nil =>
      obtain ⟨rfl, _⟩ := List.cons.inj same
      rwa [List.append_nil]
    | cons first before =>
      obtain ⟨rfl, later⟩ := List.cons.inj same
      rw [List.append_cons]
      exact delimited before other after later

theorem delimited_nil (past : List Exchange) : Delimited past [] := by
  intro before exchange after same
  simp at same

/-! ### One more exchange -/

theorem opened_mail (past : List Exchange) (sender reply : String) :
    Opened (past ++ [.command (.mail sender) reply]) sender [] :=
  ⟨past, reply, rfl, nofun⟩

/-- The split of a history at its last exchange. -/
theorem append_singleton_split {past before since : List Exchange} {last middle : Exchange}
    (same : past ++ [last] = before ++ middle :: since) :
    (since = [] ∧ middle = last ∧ before = past) ∨
      ∃ rest, since = rest ++ [last] ∧ past = before ++ middle :: rest := by
  rcases List.eq_nil_or_concat since with rfl | ⟨rest, final, rfl⟩
  · obtain ⟨rfl, equal⟩ := List.append_inj' same rfl
    exact Or.inl ⟨rfl, (List.singleton_inj.mp equal).symm, rfl⟩
  · rw [List.concat_eq_append, ← List.cons_append, ← List.append_assoc] at same
    obtain ⟨rfl, equal⟩ := List.append_inj' same rfl
    rw [List.singleton_inj.mp equal]
    exact Or.inr ⟨rest, by rw [List.concat_eq_append], rfl⟩

/-- An exchange that ends a transaction leaves none open. -/
theorem not_open_of_closes {past : List Exchange} {exchange : Exchange} (closes : Closes exchange)
    (notMail : ∀ sender reply, exchange ≠ .command (.mail sender) reply) :
    ¬ Open (past ++ [exchange]) := by
  rintro ⟨sender, since, before, reply, same, quiet⟩
  rcases append_singleton_split same with ⟨_, equal, _⟩ | ⟨rest, rfl, _⟩
  · exact notMail sender reply equal.symm
  · exact quiet exchange (by simp) closes

theorem not_open_append {past : List Exchange} {exchange : Exchange} (none_open : ¬ Open past)
    (notMail : ∀ sender reply, exchange ≠ .command (.mail sender) reply) :
    ¬ Open (past ++ [exchange]) := by
  rintro ⟨sender, since, before, reply, same, quiet⟩
  rcases append_singleton_split same with ⟨_, equal, _⟩ | ⟨rest, rfl, split⟩
  · exact notMail sender reply equal.symm
  · exact none_open ⟨sender, rest, before, reply, split, fun other member =>
      quiet other (List.mem_append_left _ member)⟩

theorem Opened.append {past since : List Exchange} {sender : String} {exchange : Exchange}
    (opened : Opened past sender since) (stays : ¬ Closes exchange) :
    Opened (past ++ [exchange]) sender (since ++ [exchange]) := by
  obtain ⟨before, reply, rfl, quiet⟩ := opened
  refine ⟨before, reply, by simp, fun other member => ?_⟩
  rcases List.mem_append.mp member with old | new
  · exact quiet other old
  · rw [List.mem_singleton.mp new]
    exact stays

/-! ### What a client has to send -/

/-- The transaction as the client's commands leave it: none, one without recipients, one with
recipients, or recipients left over from one that a greeting ended. -/
inductive Transaction where
  | none
  | opened
  | addressed
  | stale
  deriving DecidableEq

namespace Transaction

def isOpen : Transaction → Bool
  | opened => true
  | addressed => true
  | _ => false

def hasRcpts : Transaction → Bool
  | addressed => true
  | stale => true
  | _ => false

/-- The transaction after a greeting. -/
def greeted : Transaction → Transaction
  | opened => .none
  | addressed => .stale
  | other => other

end Transaction

/-- **An orderly client**: each `RCPT TO` comes in an open transaction; and a message that is not
too big is ended by its dot, and no greeting comes between its recipients and it. -/
def Orderly : Transaction → Reading → List (List UInt8) → Prop
  | _, .commands, [] => True
  | _, .message _ overflow, [] => overflow = true
  | transaction, .commands, line :: rest =>
    match commandOf line with
    | .hello => Orderly transaction.greeted .commands rest
    | .mail _ => Orderly .opened .commands rest
    | .rcpt _ => transaction.isOpen = true ∧ Orderly .addressed .commands rest
    | .data =>
      if transaction.hasRcpts then Orderly transaction (.message [] false) rest
      else Orderly transaction .commands rest
    | .rset => Orderly .none .commands rest
    | .quit => True
    | _ => Orderly transaction .commands rest
  | transaction, .message data overflow, line :: rest =>
    if isEnd line then
      (transaction = .stale → overflow = true) ∧ Orderly .none .commands rest
    else Orderly transaction (addLine data overflow line) rest

/-- **How the two variables stand to the transaction.** -/
def Related (past : List Exchange) (session : Session) : Transaction → Prop
  | .none => ¬ Open past ∧ session.rcpts = []
  | .opened => ∃ since, Opened past session.mailFrom since ∧ acceptedRcpts since = [] ∧
    session.rcpts = []
  | .addressed => ∃ since, Opened past session.mailFrom since ∧
    acceptedRcpts since = session.rcpts ∧ session.rcpts ≠ []
  | .stale => ¬ Open past ∧ session.rcpts ≠ []

namespace Related

variable {past : List Exchange} {session : Session} {transaction : Transaction}

theorem initial : Related [] Session.initial .none := by
  refine ⟨?_, rfl⟩
  rintro ⟨sender, since, before, reply, same, _⟩
  simp at same

theorem hasRcpts (related : Related past session transaction) :
    session.rcpts.isEmpty = !transaction.hasRcpts := by
  cases transaction with
  | none => exact List.isEmpty_iff.mpr related.2
  | opened =>
    obtain ⟨_, _, _, empty⟩ := related
    exact List.isEmpty_iff.mpr empty
  | addressed =>
    obtain ⟨_, _, _, some_rcpts⟩ := related
    exact Bool.eq_false_iff.mpr fun empty => some_rcpts (List.isEmpty_iff.mp empty)
  | stale => exact Bool.eq_false_iff.mpr fun empty => related.2 (List.isEmpty_iff.mp empty)

theorem isOpen (related : Related past session transaction) :
    Open past ↔ transaction.isOpen = true := by
  cases transaction with
  | none => simpa [Transaction.isOpen] using related.1
  | opened =>
    obtain ⟨since, opened, _⟩ := related
    exact ⟨fun _ => rfl, fun _ => ⟨_, since, opened⟩⟩
  | addressed =>
    obtain ⟨since, opened, _⟩ := related
    exact ⟨fun _ => rfl, fun _ => ⟨_, since, opened⟩⟩
  | stale => simpa [Transaction.isOpen] using related.1

/-- The reading is not part of the relation. -/
theorem reading (related : Related past session transaction) (reading : Reading) :
    Related past { session with reading } transaction := by
  cases transaction <;> exact related

theorem greeted (related : Related past session transaction) (reply : String) :
    Related (past ++ [.command .hello reply]) session transaction.greeted := by
  have none_open : ¬ Open (past ++ [.command .hello reply]) :=
    not_open_of_closes trivial fun _ _ => nofun
  cases transaction with
  | none => exact ⟨none_open, related.2⟩
  | opened =>
    obtain ⟨_, _, _, empty⟩ := related
    exact ⟨none_open, empty⟩
  | addressed =>
    obtain ⟨_, _, _, some_rcpts⟩ := related
    exact ⟨none_open, some_rcpts⟩
  | stale => exact ⟨none_open, related.2⟩

theorem reset (_ : Related past session transaction) (reply : String) :
    Related (past ++ [.command .rset reply]) { session with rcpts := [] } .none :=
  ⟨not_open_of_closes trivial fun _ _ => nofun, rfl⟩

/-- A command that is no part of a transaction. -/
theorem quiet (related : Related past session transaction) {exchange : Exchange}
    (stays : ¬ Closes exchange) (noRcpt : acceptedRcpts [exchange] = []) :
    Related (past ++ [exchange]) session transaction := by
  have notMail : ∀ sender reply, exchange ≠ .command (.mail sender) reply := by
    rintro sender reply rfl
    exact stays trivial
  have same : ∀ since, acceptedRcpts (since ++ [exchange]) = acceptedRcpts since := by
    intro since
    unfold acceptedRcpts at noRcpt ⊢
    rw [List.filterMap_append, noRcpt, List.append_nil]
  cases transaction with
  | none => exact ⟨not_open_append related.1 notMail, related.2⟩
  | opened =>
    obtain ⟨since, opened, accepted, empty⟩ := related
    exact ⟨_, opened.append stays, (same since).trans accepted, empty⟩
  | addressed =>
    obtain ⟨since, opened, accepted, some_rcpts⟩ := related
    exact ⟨_, opened.append stays, (same since).trans accepted, some_rcpts⟩
  | stale => exact ⟨not_open_append related.1 notMail, related.2⟩

/-- A recipient in an open transaction. -/
theorem addressed (related : Related past session transaction) (here : transaction.isOpen = true)
    (recipient : String) :
    Related (past ++ [.command (.rcpt recipient) "250 2.1.5 OK\r\n"])
      { session with rcpts := session.rcpts ++ [recipient] } .addressed := by
  have accepted : ∀ since, acceptedRcpts (since ++ [.command (.rcpt recipient) "250 2.1.5 OK\r\n"]) =
      acceptedRcpts since ++ [recipient] := fun since => List.filterMap_append
  have one : ∃ since, Opened past session.mailFrom since ∧
      acceptedRcpts since = session.rcpts := by
    cases transaction with
    | none => cases here
    | opened =>
      obtain ⟨since, opened, rcpts, empty⟩ := related
      exact ⟨since, opened, rcpts.trans empty.symm⟩
    | addressed =>
      obtain ⟨since, opened, rcpts, _⟩ := related
      exact ⟨since, opened, rcpts⟩
    | stale => cases here
  obtain ⟨since, opened, rcpts⟩ := one
  refine ⟨_, opened.append id, ?_, by simp⟩
  rw [accepted, rcpts]

end Related

/-- **When the end of a message is proper.** -/
theorem proper_endMessage {store : Delivery → Except String String} {past : List Exchange}
    {session : Session} {transaction : Transaction} (related : Related past session transaction)
    (rcpts : transaction.hasRcpts = true) (data : List UInt8) (overflow : Bool) (ending : Ending) :
    Proper past (endMessage store session data overflow ending) ↔
      overflow = true ∨ (ending = .dot ∧ transaction ≠ .stale) := by
  cases overflow with
  | true => exact ⟨fun _ => Or.inl rfl, fun _ => trivial⟩
  | false =>
    show (ending = .dot ∧ ∃ since, Opened past session.mailFrom since ∧
      session.rcpts = acceptedRcpts since) ↔ _
    cases transaction with
    | none => cases rcpts
    | opened => cases rcpts
    | addressed =>
      obtain ⟨since, opened, accepted, _⟩ := related
      constructor
      · rintro ⟨dot, _⟩
        exact Or.inr ⟨dot, by decide⟩
      · rintro (small | ⟨dot, _⟩)
        · cases small
        · exact ⟨dot, since, opened, accepted.symm⟩
    | stale =>
      constructor
      · rintro ⟨_, since, opened, _⟩
        exact absurd ⟨_, since, opened⟩ related.1
      · rintro (small | ⟨_, fresh⟩)
        · cases small
        · exact absurd rfl fresh

/-- After a message no transaction is open. -/
theorem related_endMessage (store : Delivery → Except String String) (past : List Exchange)
    (session : Session) (data : List UInt8) (overflow : Bool) (ending : Ending) :
    Related (past ++ [endMessage store session data overflow ending])
      { session with rcpts := [], reading := .commands } .none := by
  refine ⟨not_open_of_closes ?_ ?_, rfl⟩
  · cases overflow <;> trivial
  · cases overflow <;> exact fun _ _ => nofun

theorem delimited_loop (store : Delivery → Except String String) (lines : List (List UInt8)) :
    ∀ (past : List Exchange) (session : Session) (transaction : Transaction),
      Related past session transaction →
      (session.reading ≠ .commands → transaction.hasRcpts = true) →
      (Delimited past (handleSession store session lines) ↔
        Orderly transaction session.reading lines) := by
  induction lines with
  | nil =>
    rintro past ⟨mailFrom, rcpts, reading⟩ transaction related begun
    cases reading with
    | commands => exact ⟨fun _ => trivial, fun _ => delimited_nil past⟩
    | message data overflow =>
      have rcptsHere := begun nofun
      show Delimited past [endMessage store _ data overflow .closed] ↔ overflow = true
      rw [delimited_cons, proper_endMessage related rcptsHere]
      constructor
      · rintro ⟨big | ⟨dot, _⟩, _⟩
        · exact big
        · cases dot
      · exact fun big => ⟨Or.inl big, delimited_nil _⟩
  | cons line rest ih =>
    rintro past ⟨mailFrom, rcpts, reading⟩ transaction related begun
    cases reading with
    | message data overflow =>
      have rcptsHere := begun nofun
      unfold handleSession Orderly
      by_cases ends : isEnd line = true
      · simp only [ends, if_true]
        rw [delimited_cons, proper_endMessage related rcptsHere,
          ih _ _ _ (related_endMessage store past _ data overflow .dot) fun other => absurd rfl other]
        refine and_congr_left fun _ => ⟨?_, fun proper => ?_⟩
        · rintro (big | ⟨_, fresh⟩) stale
          · exact big
          · exact absurd stale fresh
        · by_cases stale : transaction = .stale
          · exact Or.inl (proper stale)
          · exact Or.inr ⟨rfl, stale⟩
      · simp only [ends, if_false, Bool.false_eq_true]
        exact ih _ _ _ (related.reading _) fun _ => rcptsHere
    | commands =>
      unfold handleSession Orderly
      cases command : commandOf line with
      | hello =>
        simp only [handleCommand]
        rw [delimited_cons, ih _ _ _ (related.greeted _) fun other => absurd rfl other]
        exact and_iff_right trivial
      | mail sender =>
        simp only [handleCommand]
        rw [delimited_cons, ih _ _ .opened ⟨[], opened_mail past sender _, rfl, rfl⟩
          fun other => absurd rfl other]
        exact and_iff_right trivial
      | rcpt recipient =>
        simp only [handleCommand]
        rw [delimited_cons]
        have proper : Proper past (.command (.rcpt recipient) "250 2.1.5 OK\r\n") ↔
            transaction.isOpen = true := by
          rw [← related.isOpen]
          constructor
          · intro refused
            by_contra closed
            exact absurd (refused closed) (by decide)
          · exact fun here closed => absurd here closed
        rw [proper]
        refine and_congr_right fun here => ?_
        exact ih _ _ _ (related.addressed here recipient) fun other => absurd rfl other
      | data =>
        have empty := related.hasRcpts
        by_cases some_rcpts : transaction.hasRcpts = true
        · rw [some_rcpts] at empty
          simp only [some_rcpts, empty, Bool.not_true, if_false, if_true, Bool.false_eq_true]
          exact ih _ _ _ (related.reading _) fun _ => some_rcpts
        · rw [Bool.not_eq_true] at some_rcpts
          rw [some_rcpts] at empty
          simp only [some_rcpts, empty, Bool.not_false, if_false, if_true, Bool.false_eq_true]
          rw [delimited_cons, ih _ _ _ (related.quiet id rfl) fun other => absurd rfl other]
          exact and_iff_right trivial
      | rset =>
        simp only [handleCommand]
        rw [delimited_cons, ih _ _ _ (related.reset _) fun other => absurd rfl other]
        exact and_iff_right trivial
      | quit =>
        simp only
        rw [delimited_cons]
        exact ⟨fun _ => trivial, fun _ => ⟨trivial, delimited_nil _⟩⟩
      | noop =>
        simp only [handleCommand]
        rw [delimited_cons, ih _ _ _ (related.quiet id rfl) fun other => absurd rfl other]
        exact and_iff_right trivial
      | verify =>
        simp only [handleCommand]
        rw [delimited_cons, ih _ _ _ (related.quiet id rfl) fun other => absurd rfl other]
        exact and_iff_right trivial
      | unknown =>
        simp only [handleCommand]
        rw [delimited_cons, ih _ _ _ (related.quiet id rfl) fun other => absurd rfl other]
        exact and_iff_right trivial

/-- **When the transactions of a session are delimited**: exactly when the client is orderly. -/
theorem session_delimited (store : Delivery → Except String String) (bytes : List UInt8) :
    Delimited [] (session store bytes) ↔ Orderly .none .commands (linesOf bytes) :=
  delimited_loop store (linesOf bytes) [] Session.initial .none Related.initial
    fun other => absurd rfl other

/-- A recipient without a transaction, and a message that the connection cuts short. -/
def sampleBytes : List UInt8 :=
  utf8 "MAIL FROM:<a@x.test>\r\nRSET\r\nRCPT TO:<b@x.test>\r\nDATA\r\nhi"

/-- The message is delivered with the sender of a transaction that was reset, although the
connection closed before its dot. -/
theorem session_undelimited : ¬ Delimited [] (session (fun _ => .ok "id") sampleBytes) := by
  intro delimited
  have delivered : session (fun _ => .ok "id") sampleBytes =
      [.command (.mail "a@x.test") "250 2.1.0 OK\r\n", .command .rset "250 2.0.0 OK\r\n",
        .command (.rcpt "b@x.test") "250 2.1.5 OK\r\n"] ++
      .message (some ⟨"a@x.test", ["b@x.test"], utf8 "hi"⟩) .closed
        "250 2.0.0 OK: queued as id\r\n" :: [] := by
    decide
  have proper := delimited _ _ _ delivered
  exact absurd proper.1 (by decide)

end CloudTwin.Mailbox
