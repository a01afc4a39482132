/-
**Reading a message off the wire** (`mailbox/smtp.rs`, `read_data`).

The client doubles the dot at the start of a line, and a line ends in `\r\n`. The reader takes the dot
away again, but its lines end in `\n`: a bare `\n` inside a line of the message starts a line of the
reader, whose dots nobody has doubled.

* `readData` — the reader.
* `handleSession_readData` — it is what the session does in a message.
* `onWire` — a message as the client sends it.
* `innerLines` — the lines of the reader that start inside a line of the message.
* `read_data_inverts` — when the reader gets the message back.
-/

import CloudTwin.Mailbox.Smtp

namespace CloudTwin.Mailbox

open Lib Lib.Text

/-! ### The reader -/

/-- A line without the dot that was doubled. -/
def contentOf (line : List UInt8) : List UInt8 :=
  if (utf8 "..").isPrefixOf line then line.drop 1 else line

/-- Read the DATA payload until the lone `.` terminator: the message, `none` if it is too big, and
the lines that are left. -/
def readData : List (List UInt8) → List UInt8 → Bool → Option (List UInt8) × List (List UInt8)
  | [], data, overflow => (if overflow then none else some data, [])
  | line :: rest, data, overflow =>
    if isEnd line then (if overflow then none else some data, rest)
    else if overflow then readData rest data true
    else if maxMessage < data.length + (contentOf line).length then readData rest data true
    else readData rest (data ++ contentOf line) false

/-- What is read of the bytes of a connection, and the bytes that are left. -/
def readBytes (bytes : List UInt8) : Option (List UInt8) × List UInt8 :=
  ((readData (linesOf bytes) [] false).1, (readData (linesOf bytes) [] false).2.flatten)

/-- **The session in a message** does what the reader does. -/
theorem handleSession_readData (store : Delivery → Except String String) (session : Session) :
    ∀ (lines : List (List UInt8)) (data : List UInt8) (overflow : Bool),
      ∃ read tooBig ending,
        (readData lines data overflow).1 = (if tooBig then none else some read) ∧
        handleSession store { session with reading := .message data overflow } lines =
          endMessage store session read tooBig ending :: (match ending with
            | .dot => handleSession store { session with rcpts := [], reading := .commands }
                (readData lines data overflow).2
            | .closed => []) := by
  intro lines
  induction lines with
  | nil => exact fun data overflow => ⟨data, overflow, .closed, rfl, rfl⟩
  | cons line rest ih =>
    intro data overflow
    rw [readData, handleSession]
    by_cases last : isEnd line = true
    · simp only [if_pos last]
      exact ⟨data, overflow, .dot, rfl, rfl⟩
    · simp only [if_neg last, addLine]
      by_cases overflowed : overflow = true
      · simp only [if_pos overflowed]
        exact ih data true
      · simp only [if_neg overflowed]
        change ∃ read tooBig ending, _ ∧ handleSession store { session with
          reading := if maxMessage < data.length + (contentOf line).length then _ else _ } rest = _
        by_cases big : maxMessage < data.length + (contentOf line).length
        · simp only [if_pos big]
          exact ih data true
        · simp only [if_neg big]
          exact ih (data ++ contentOf line) false

/-! ### Lines -/

theorem linesOf_flatten (bytes : List UInt8) : (linesOf bytes).flatten = bytes := by
  induction bytes with
  | nil => rfl
  | cons byte bytes ih =>
    rw [linesOf]
    split
    · rw [List.flatten_cons, ih]
      rfl
    · cases lines : linesOf bytes with
      | nil =>
        rw [lines] at ih
        rw [← ih]
        rfl
      | cons first others =>
        rw [lines, List.flatten_cons] at ih
        rw [← ih]
        rfl

theorem linesOf_ne_nil {bytes : List UInt8} (some' : bytes ≠ []) : linesOf bytes ≠ [] := by
  intro none'
  have whole := linesOf_flatten bytes
  rw [none'] at whole
  exact some' whole.symm

/-- Lines end at a line feed, whatever follows. -/
theorem linesOf_append (bytes rest : List UInt8) :
    linesOf (bytes ++ 10 :: rest) = linesOf (bytes ++ [10]) ++ linesOf rest := by
  induction bytes with
  | nil => rfl
  | cons byte bytes ih =>
    rw [List.cons_append, List.cons_append, linesOf, linesOf, ih]
    split
    · rfl
    · cases lines : linesOf (bytes ++ [10]) with
      | nil => exact absurd lines (linesOf_ne_nil (by simp))
      | cons first others => rfl

/-- The first line starts as the bytes do. -/
theorem linesOf_cons (byte : UInt8) (rest : List UInt8) :
    ∃ tail others, linesOf (byte :: rest) = (byte :: tail) :: others := by
  rw [linesOf]
  split
  · rename_i feed
    exact ⟨[], linesOf rest, by rw [feed]⟩
  · cases linesOf rest with
    | nil => exact ⟨[], [], rfl⟩
    | cons first others => exact ⟨first, others, rfl⟩

/-! ### The wire -/

def crlf : List UInt8 := [13, 10]

/-- A line as the client sends it. -/
def stuff (line : List UInt8) : List UInt8 :=
  if line.head? = some 46 then 46 :: line else line

/-- The message of the lines. -/
def bodyOf (lines : List (List UInt8)) : List UInt8 :=
  lines.flatMap fun line => line ++ crlf

/-- **What the client sends**: the lines, the lone dot, and what follows the message. -/
def onWire (lines : List (List UInt8)) (further : List UInt8) : List UInt8 :=
  lines.flatMap (fun line => stuff line ++ crlf) ++ (46 :: crlf) ++ further

/-- **The lines of the reader that start inside a line of the message.** -/
def innerLines (lines : List (List UInt8)) : List (List UInt8) :=
  lines.flatMap fun line => (linesOf (line ++ crlf)).tail

/-- The line starts with two dots. -/
def isDotted (line : List UInt8) : Bool :=
  (utf8 "..").isPrefixOf line

theorem dots : utf8 ".." = [46, 46] := by
  decide

theorem contentOf_plain {line : List UInt8} (plain : isDotted line = false) :
    contentOf line = line := by
  unfold contentOf
  rw [if_neg (by rw [← isDotted, plain]; exact Bool.false_ne_true)]

theorem contentOf_length (line : List UInt8) :
    (contentOf line).length + (if isDotted line then 1 else 0) = line.length := by
  unfold contentOf isDotted
  by_cases dotted : (utf8 "..").isPrefixOf line = true
  · rw [if_pos dotted, if_pos dotted, List.length_drop]
    obtain ⟨rest, rfl⟩ := List.isPrefixOf_iff_prefix.mp dotted
    rw [dots]
    simp
  · rw [if_neg dotted, if_neg dotted, Nat.add_zero]

theorem isEnd_cases {line : List UInt8} (last : isEnd line = true) :
    line = [46, 13, 10] ∨ line = [46, 10] ∨ line = [46] := by
  have texts : utf8 ".\r\n" = [46, 13, 10] ∧ utf8 ".\n" = [46, 10] ∧ utf8 "." = [46] := by
    decide
  unfold isEnd at last
  simp only [Bool.or_eq_true, beq_iff_eq, texts.1, texts.2.1, texts.2.2] at last
  tauto

/-- **A line of the message on the wire**: its first line of the reader is read as it was, and the
others are those that start inside it. -/
theorem linesOf_stuffed (line : List UInt8) :
    ∃ first sent, linesOf (line ++ crlf) = first :: (linesOf (line ++ crlf)).tail ∧
      linesOf (stuff line ++ crlf) = sent :: (linesOf (line ++ crlf)).tail ∧
      isEnd sent = false ∧ contentOf sent = first := by
  cases line with
  | nil => exact ⟨crlf, crlf, by decide, by decide, by decide, by decide⟩
  | cons byte rest =>
    obtain ⟨tail, others, lines⟩ := linesOf_cons byte (rest ++ crlf)
    rw [List.cons_append, lines]
    unfold stuff
    by_cases dot : byte = 46
    · subst dot
      refine ⟨46 :: tail, 46 :: 46 :: tail, rfl, ?_, ?_, ?_⟩
      · rw [if_pos List.head?_cons, List.cons_append, List.cons_append, linesOf, if_neg (by decide),
          lines]
        rfl
      · rw [Bool.eq_false_iff]
        intro last
        rcases isEnd_cases last with same | same | same
        · cases same
        · cases same
        · cases same
      · unfold contentOf
        rw [if_pos (List.isPrefixOf_iff_prefix.mpr ⟨tail, by rw [dots]; rfl⟩)]
        rfl
    · refine ⟨byte :: tail, byte :: tail, rfl, ?_, ?_, ?_⟩
      · rw [if_neg (by simpa using dot), List.cons_append, lines]
        rfl
      · rw [Bool.eq_false_iff]
        intro last
        rcases isEnd_cases last with same | same | same
        · exact dot (List.cons.inj same).1
        · exact dot (List.cons.inj same).1
        · exact dot (List.cons.inj same).1
      · refine contentOf_plain ?_
        rw [isDotted, Bool.eq_false_iff, ne_eq, List.isPrefixOf_iff_prefix, dots,
          List.cons_prefix_cons]
        exact fun both => dot both.1.symm

/-- The lines of the reader in a message. -/
def sentLines (lines : List (List UInt8)) : List (List UInt8) :=
  lines.flatMap fun line => linesOf (stuff line ++ crlf)

theorem linesOf_onWire (lines : List (List UInt8)) (further : List UInt8) :
    linesOf (onWire lines further) = sentLines lines ++ (46 :: crlf) :: linesOf further := by
  induction lines with
  | nil =>
    change linesOf ([46, 13] ++ 10 :: further) = _
    rw [linesOf_append]
    rfl
  | cons line lines ih =>
    have pieces : onWire (line :: lines) further =
        (stuff line ++ [13]) ++ 10 :: onWire lines further := by
      simp [onWire, crlf]
    have shape : sentLines (line :: lines) = linesOf (stuff line ++ crlf) ++ sentLines lines :=
      List.flatMap_cons ..
    rw [pieces, linesOf_append, ih, shape, List.append_assoc, List.append_assoc]
    rfl

/-- A lone dot is sent inside a message exactly when it starts inside a line. -/
theorem sentLines_end (lines : List (List UInt8)) :
    (∃ line ∈ sentLines lines, isEnd line = true) ↔ ∃ line ∈ innerLines lines, isEnd line = true := by
  simp only [sentLines, innerLines, List.mem_flatMap]
  constructor
  · rintro ⟨sent, ⟨line, member, here⟩, last⟩
    obtain ⟨_, head, _, shape, plain, _⟩ := linesOf_stuffed line
    rw [shape] at here
    rcases List.mem_cons.mp here with rfl | inner
    · rw [plain] at last
      cases last
    · exact ⟨sent, ⟨line, member, inner⟩, last⟩
  · rintro ⟨inner, ⟨line, member, here⟩, last⟩
    obtain ⟨_, head, _, shape, _, _⟩ := linesOf_stuffed line
    exact ⟨inner, ⟨line, member, shape ▸ List.mem_cons_of_mem _ here⟩, last⟩

/-- What is read of a message, and its dots that were taken away. -/
theorem contents_length (lines : List (List UInt8)) :
    ((sentLines lines).flatMap contentOf).length + (innerLines lines).countP isDotted =
      (bodyOf lines).length := by
  have inner : ∀ pieces : List (List UInt8),
      (pieces.flatMap contentOf).length + pieces.countP isDotted = pieces.flatten.length := by
    intro pieces
    induction pieces with
    | nil => rfl
    | cons piece pieces ih =>
      have own := contentOf_length piece
      rw [List.flatMap_cons, List.length_append, List.countP_cons, List.flatten_cons,
        List.length_append]
      omega
  induction lines with
  | nil => rfl
  | cons line lines ih =>
    obtain ⟨first, sent, plain, shape, _, read⟩ := linesOf_stuffed line
    have whole := congrArg List.length (linesOf_flatten (line ++ crlf))
    rw [plain, List.flatten_cons, List.length_append] at whole
    have rest := inner (linesOf (line ++ crlf)).tail
    unfold sentLines innerLines bodyOf at ih ⊢
    rw [List.flatMap_cons, List.flatMap_append, List.flatMap_cons, List.flatMap_cons,
      List.countP_append, List.length_append, List.length_append, shape, List.flatMap_cons, read,
      List.length_append]
    omega

/-- A message without dots to take away is read as it was. -/
theorem contents_plain {lines : List (List UInt8)}
    (plain : ∀ line ∈ innerLines lines, isDotted line = false) :
    (sentLines lines).flatMap contentOf = bodyOf lines := by
  have inner : ∀ pieces : List (List UInt8), (∀ piece ∈ pieces, isDotted piece = false) →
      pieces.flatMap contentOf = pieces.flatten := by
    intro pieces
    induction pieces with
    | nil => exact fun _ => rfl
    | cons piece pieces ih =>
      intro each
      rw [List.flatMap_cons, List.flatten_cons, contentOf_plain (each piece (List.mem_cons_self ..)),
        ih fun other member => each other (List.mem_cons_of_mem _ member)]
  induction lines with
  | nil => rfl
  | cons line lines ih =>
    obtain ⟨first, sent, whole, shape, _, read⟩ := linesOf_stuffed line
    unfold sentLines innerLines bodyOf at *
    rw [List.flatMap_cons] at plain
    rw [List.flatMap_cons, List.flatMap_append, List.flatMap_cons, shape, List.flatMap_cons, read,
      inner _ fun piece member => plain piece (List.mem_append_left _ member),
      ih fun piece member => plain piece (List.mem_append_right _ member), ← List.flatten_cons, ← whole,
      linesOf_flatten]

/-! ### Reading what was sent -/

/-- Lines without a lone dot among them, and the lone dot after them. -/
theorem readData_whole {last : List UInt8} (dot : isEnd last = true) (rest : List (List UInt8)) :
    ∀ (lines : List (List UInt8)) (data : List UInt8) (overflow : Bool),
      (∀ line ∈ lines, isEnd line = false) → (overflow = false → data.length ≤ maxMessage) →
      readData (lines ++ last :: rest) data overflow =
        (if overflow = true ∨ maxMessage < data.length + (lines.flatMap contentOf).length then none
          else some (data ++ lines.flatMap contentOf), rest) := by
  intro lines
  induction lines with
  | nil =>
    intro data overflow _ small
    rw [List.nil_append, readData, if_pos dot, List.flatMap_nil, List.append_nil, List.length_nil,
      Nat.add_zero]
    cases overflow with
    | true => rfl
    | false => rw [if_neg Bool.false_ne_true, if_neg (by simpa using small rfl)]
  | cons line lines ih =>
    intro data overflow each small
    have others := fun other member => each other (List.mem_cons_of_mem _ member)
    have plain := each line (List.mem_cons_self ..)
    rw [List.cons_append, readData, if_neg (by rw [plain]; exact Bool.false_ne_true),
      List.flatMap_cons, List.length_append]
    cases overflow with
    | true =>
      rw [if_pos rfl, ih data true others (fun same => by cases same), if_pos (Or.inl rfl),
        if_pos (Or.inl rfl)]
    | false =>
      rw [if_neg Bool.false_ne_true]
      by_cases big : maxMessage < data.length + (contentOf line).length
      · rw [if_pos big, ih data true others (fun same => by cases same), if_pos (Or.inl rfl),
          if_pos (Or.inr (by omega))]
      · rw [if_neg big, ih _ false others (fun _ => by rw [List.length_append]; omega),
          List.length_append, Nat.add_assoc, List.append_assoc]

/-- A lone dot among the lines ends the message there. -/
theorem readData_early {last : List UInt8} (rest : List (List UInt8)) :
    ∀ (lines : List (List UInt8)) (data : List UInt8) (overflow : Bool),
      (∃ line ∈ lines, isEnd line = true) → ∃ left,
        (readData (lines ++ last :: rest) data overflow).2 = left ++ last :: rest := by
  intro lines
  induction lines with
  | nil =>
    rintro data overflow ⟨line, member, _⟩
    cases member
  | cons line lines ih =>
    rintro data overflow ⟨found, member, dot⟩
    rw [List.cons_append, readData]
    by_cases here : isEnd line = true
    · rw [if_pos here]
      exact ⟨lines, rfl⟩
    · have later : ∃ line ∈ lines, isEnd line = true := by
        rcases List.mem_cons.mp member with rfl | inside
        · exact absurd dot here
        · exact ⟨found, inside, dot⟩
      rw [if_neg here]
      split
      · exact ih data true later
      · split
        · exact ih data true later
        · exact ih _ false later

/-- **Reading what was sent**: the reader gets the message back, or, of a message that is too big,
nothing, and leaves what follows it, exactly when no line of the reader that starts inside a line of
the message is a lone dot, and none that matters starts with two dots. -/
theorem read_data_inverts (lines : List (List UInt8)) (further : List UInt8) :
    readBytes (onWire lines further) =
        (if (bodyOf lines).length ≤ maxMessage then some (bodyOf lines) else none, further) ↔
      (∀ line ∈ innerLines lines, isEnd line = false) ∧
      if (bodyOf lines).length ≤ maxMessage then ∀ line ∈ innerLines lines, isDotted line = false
      else maxMessage + (innerLines lines).countP isDotted < (bodyOf lines).length := by
  have dot : isEnd (46 :: crlf) = true := by decide
  have lengths := contents_length lines
  rw [readBytes, linesOf_onWire]
  by_cases early : ∃ line ∈ sentLines lines, isEnd line = true
  · obtain ⟨left, rest⟩ := @readData_early (46 :: crlf) (linesOf further) (sentLines lines) [] false
      early
    constructor
    · intro same
      have short := congrArg List.length (Prod.mk.inj same).2
      rw [rest, List.flatten_append, List.flatten_cons, linesOf_flatten, List.length_append,
        List.length_append, List.length_cons] at short
      omega
    · rintro ⟨none', _⟩
      obtain ⟨line, member, last⟩ := (sentLines_end lines).mp early
      rw [none' line member] at last
      cases last
  · have plain : ∀ line ∈ sentLines lines, isEnd line = false := fun line member =>
      Bool.eq_false_iff.mpr fun last => early ⟨line, member, last⟩
    have inner : ∀ line ∈ innerLines lines, isEnd line = false := fun line member =>
      Bool.eq_false_iff.mpr fun last => early ((sentLines_end lines).mpr ⟨line, member, last⟩)
    rw [readData_whole dot (linesOf further) (sentLines lines) [] false plain fun _ => Nat.zero_le _]
    simp only [Bool.false_eq_true, false_or, List.length_nil, Nat.zero_add, List.nil_append,
      linesOf_flatten, Prod.mk.injEq, and_true]
    rw [and_iff_right inner]
    by_cases small : (bodyOf lines).length ≤ maxMessage
    · rw [if_pos small, if_neg (by omega), if_pos small, Option.some.injEq]
      constructor
      · intro same line member
        rw [same] at lengths
        have none' : (innerLines lines).countP isDotted = 0 := by omega
        exact Bool.eq_false_iff.mpr (List.countP_eq_zero.mp none' line member)
      · exact contents_plain
    · rw [if_neg small, if_neg small]
      by_cases big : maxMessage < ((sentLines lines).flatMap contentOf).length
      · rw [if_pos big]
        exact ⟨fun _ => by omega, fun _ => rfl⟩
      · rw [if_neg big]
        constructor
        · intro same
          cases same
        · intro more
          omega

/-- A message of one line with a line feed and a dot in it: the reader ends at that dot, and takes
what follows for commands. -/
theorem line_smuggled : readBytes (onWire [utf8 "a\n."] (utf8 "QUIT\r\n")) =
    (some (utf8 "a\n"), utf8 ".\r\nQUIT\r\n") := by
  decide

end CloudTwin.Mailbox
