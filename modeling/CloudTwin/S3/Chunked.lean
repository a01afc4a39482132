/-
**`aws-chunked` request bodies** (`aws/s3/chunked.rs`).

The decoder scans the body from a position that every chunk moves on. Positions and sizes are `usize`:
an addition that overflows is a panic, and not an error of the request.

* `decode` — the scanner.
* `framed` — a body as a client frames it.
* `chunks_framed` — the loop reads every chunk that was framed; `trailersOf_framed` — the trailers.
* `chunks_answers` — the loop answers exactly when no header that it reaches overflows.
* `decode_framed` — both, of the decoder.
* `size_overflows` — a body on which it panics.
-/

import CloudTwin.Lib.Substring
import CloudTwin.Lib.Utf8
import CloudTwin.S3.Rows

namespace CloudTwin.S3.Chunked

open Lib Lib.Text

/-! ### The decoder -/

structure Decoded where
  data : List UInt8
  /-- Trailing headers (`x-amz-checksum-*`), names lowercase. -/
  trailers : List (String × String)
  deriving DecidableEq

inductive ChunkError where
  | missingTerminator
  | invalidUtf8
  | badChunkSize (sizeHex : String)
  | truncatedChunk
  deriving DecidableEq

/-- How the decoder fails: with an error, by a panic, or, which does not happen, by going on. -/
inductive Fault where
  | error (error : ChunkError)
  | panic
  | unfinished
  deriving DecidableEq

/-- An addition of two `usize`. -/
def addUsize (first second : Nat) : Except Fault Nat :=
  if first + second < 2 ^ 64 then .ok (first + second) else .error .panic

def crlf : List UInt8 := [13, 10]

def findCrlf (body : List UInt8) (start : Nat) : Option Nat :=
  if start ≤ body.length then (findSub crlf (body.drop start)).map fun found => start + found else none

/-- `body.get(start..stop)`. -/
def getRange (body : List UInt8) (start stop : Nat) : Option (List UInt8) :=
  if start ≤ stop ∧ stop ≤ body.length then some ((body.drop start).take (stop - start)) else none

def hexDigits : List Char → Nat → Option Nat
  | [], value => some value
  | char :: rest, value => do hexDigits rest (value * 16 + (← hexValue char))

/-- `usize::from_str_radix(text, 16)`: an optional plus, digits, and the range of a `usize`. -/
def parseHex (text : String) : Option Nat :=
  let digits := if text.toList.head? = some '+' then text.toList.drop 1 else text.toList
  if digits.isEmpty then none else (hexDigits digits 0).filter fun value => value < 2 ^ 64

/-- The header of the chunk at a position: where its line ends, and the size that it announces. -/
def header (body : List UInt8) (pos : Nat) : Except ChunkError (Nat × Nat) := do
  let stop ← okOr (findCrlf body pos) .missingTerminator
  let line ← okOr (fromUtf8 ((body.drop pos).take (stop - pos))) .invalidUtf8
  let sizeHex := trim (beforeFirst ';' line)
  let size ← okOr (parseHex sizeHex) (.badChunkSize sizeHex)
  return (stop, size)

/-- The line break after a chunk is skipped if it is there. -/
def skipCrlf (body : List UInt8) (pos : Nat) : Except Fault Nat := do
  let next ← addUsize pos 2
  return if getRange body pos next = some crlf then next else pos

/-- The loop over the chunks; what it returns is the data and the position of the trailers. -/
def chunks (body : List UInt8) : Nat → Nat → List UInt8 → Except Fault (List UInt8 × Nat)
  | 0, _, _ => .error .unfinished
  | fuel + 1, pos, data => do
    let (stop, size) ← (header body pos).mapError Fault.error
    let start ← addUsize stop 2
    if size = 0 then return (data, start)
    else
      let next ← addUsize start size
      let chunk ← okOr (getRange body start next) (.error .truncatedChunk)
      let after ← skipCrlf body next
      chunks body fuel after (data ++ chunk)

/-- `text.split("\r\n")`. -/
def splitCrlf : List Char → List (List Char)
  | '\r' :: '\n' :: rest => [] :: splitCrlf rest
  | char :: rest =>
    match splitCrlf rest with
    | [] => [[char]]
    | first :: others => (char :: first) :: others
  | [] => [[]]

def trailerSignature : String := "x-amz-trailer-signature"

/-- The trailer of a line, if it has one. -/
def trailerOf (line : String) : Option (String × String) := do
  let (name, value) ← splitOnce ':' (trim line)
  let trailer := (toAsciiLowercase (trim name), trim value)
  if trailer.1 = trailerSignature then none else some trailer

def trailersOf (rest : List UInt8) : List (String × String) :=
  (splitCrlf (fromUtf8Lossy rest).toList).filterMap fun line => trailerOf (String.ofList line)

/-- Decode `<hex>[;chunk-signature=..]\r\n<data>\r\n ... 0\r\n<trailers>\r\n\r\n`. -/
def decode (body : List UInt8) : Except Fault Decoded := do
  let (data, pos) ← chunks body (body.length + 1) 0 []
  return { data, trailers := trailersOf (body.drop pos) }

example : decode (utf8 "3\r\nabc\r\n0\r\n\r\n") = .ok { data := utf8 "abc", trailers := [] } := by
  decide

/-! ### A framed body -/

structure Chunk where
  data : List UInt8
  extension : Option String

/-- The line before a chunk: its size, and perhaps `;chunk-signature=..`. -/
def lineOf (size : Nat) (extension : Option String) : String :=
  String.ofList (Nat.toDigits 16 size) ++ extension.elim "" fun text => ";" ++ text

def frame (chunk : Chunk) : List UInt8 :=
  utf8 (lineOf chunk.data.length chunk.extension) ++ crlf ++ chunk.data ++ crlf

/-- The lines of the trailers, and the empty line after them. -/
def trailerText (trailers : List (String × String)) : List Char :=
  (trailers.flatMap fun trailer => (trailer.1 ++ ":" ++ trailer.2).toList ++ ['\r', '\n']) ++
    ['\r', '\n']

/-- **The framing of a payload.** -/
def framed (parts : List Chunk) (last : Option String) (trailers : List (String × String)) :
    List UInt8 :=
  parts.flatMap frame ++ utf8 (lineOf 0 last) ++ crlf ++ utf8 (String.ofList (trailerText trailers))

/-- An extension stays on its line. -/
def OnLine (extension : Option String) : Prop :=
  ∀ text, extension = some text → '\r' ∉ text.toList

/-- A trailer line: a name in lower case without a colon or a line break, and a trimmed value. -/
structure TrailerLine (trailer : String × String) : Prop where
  lower : toAsciiLowercase trailer.1 = trailer.1
  colon : ':' ∉ trailer.1.toList
  breaks : '\r' ∉ trailer.1.toList ∧ '\n' ∉ trailer.1.toList
  trimmed : trim trailer.2 = trailer.2
  value : ¬ ['\r', '\n'] <:+: trailer.2.toList

/-! ### Sizes -/

theorem hexDigits_append (first rest : List Char) :
    ∀ value, hexDigits (first ++ rest) value = (hexDigits first value).bind (hexDigits rest) := by
  induction first with
  | nil => exact fun _ => rfl
  | cons char first ih =>
    intro value
    cases known : hexValue char with
    | none => simp [hexDigits, known]
    | some digit => simp [hexDigits, known, ih]

theorem hexDigits_toDigits (size : Nat) : hexDigits (Nat.toDigits 16 size) 0 = some size := by
  induction size using Nat.strong_induction_on with
  | _ size ih =>
    rw [Nat.toDigits_eq_if (by decide)]
    split
    · rename_i small
      simp [hexDigits, hexValue_digitChar size small]
    · rename_i large
      rw [hexDigits_append, ih (size / 16) (by omega)]
      simp [hexDigits, hexValue_digitChar (size % 16) (by omega)]
      omega

/-- The digits of a number are hexadecimal digits. -/
theorem toDigits_hex (size : Nat) : ∀ char ∈ Nat.toDigits 16 size,
    ∃ digit < 16, char = Nat.digitChar digit := by
  induction size using Nat.strong_induction_on with
  | _ size ih =>
    rw [Nat.toDigits_eq_if (by decide)]
    intro char member
    split at member
    · rename_i small
      exact ⟨size, small, List.mem_singleton.mp member⟩
    · rename_i large
      rcases List.mem_append.mp member with high | low
      · exact ih (size / 16) (by omega) char high
      · exact ⟨size % 16, by omega, List.mem_singleton.mp low⟩

/-- No digit is a blank, a separator or a sign. -/
theorem digitChar_plain : ∀ digit < 16, isWhitespace (Nat.digitChar digit) = false ∧
    Nat.digitChar digit ≠ ';' ∧ Nat.digitChar digit ≠ '\r' ∧ Nat.digitChar digit ≠ '+' := by
  decide

theorem parseHex_toDigits {size : Nat} (small : size < 2 ^ 64) :
    parseHex (String.ofList (Nat.toDigits 16 size)) = some size := by
  have unsigned : (Nat.toDigits 16 size).head? ≠ some '+' := by
    intro signed
    obtain ⟨digit, less, same⟩ := toDigits_hex size '+' (List.mem_of_mem_head? signed)
    exact (digitChar_plain digit less).2.2.2 same.symm
  have some' : (Nat.toDigits 16 size).isEmpty = false := by
    rw [List.isEmpty_eq_false_iff]
    exact Nat.toDigits_ne_nil
  unfold parseHex
  simp only [String.toList_ofList, if_neg unsigned, some', hexDigits_toDigits, Bool.false_eq_true,
    if_false, Option.filter_some, decide_eq_true small, if_true]

/-- **The line of a chunk announces its size.** -/
theorem lineOf_size (size : Nat) (extension : Option String) :
    trim (beforeFirst ';' (lineOf size extension)) = String.ofList (Nat.toDigits 16 size) := by
  have digits : beforeFirst ';' (lineOf size extension) = String.ofList (Nat.toDigits 16 size) := by
    have stays : ∀ char ∈ Nat.toDigits 16 size, (char != ';') = true := by
      intro char member
      obtain ⟨digit, less, rfl⟩ := toDigits_hex size char member
      exact bne_iff_ne.mpr (digitChar_plain digit less).2.1
    unfold beforeFirst lineOf
    rw [String.toList_append, String.toList_ofList, List.takeWhile_append_of_pos stays]
    cases extension with
    | none => simp
    | some text => simp
  rw [digits]
  refine trim_plain fun char member => ?_
  obtain ⟨digit, less, rfl⟩ := toDigits_hex size char member
  exact (digitChar_plain digit less).1

theorem lineOf_break {size : Nat} {extension : Option String} (onLine : OnLine extension) :
    (13 : UInt8) ∉ utf8 (lineOf size extension) := by
  intro member
  have char := mem_utf8 member (by decide)
  unfold lineOf at char
  rw [String.toList_append, String.toList_ofList] at char
  rcases List.mem_append.mp char with digit | rest
  · obtain ⟨digit, less, same⟩ := toDigits_hex size _ digit
    exact (digitChar_plain digit less).2.2.1 same.symm
  · cases extension with
    | none => cases rest
    | some text =>
      have named := onLine text rfl
      rw [Option.elim_some, String.toList_append] at rest
      rcases List.mem_append.mp rest with semicolon | inside
      · exact absurd semicolon (by decide)
      · exact named inside

/-! ### A chunk is read -/

theorem findSub_crlf {line : List UInt8} (absent : (13 : UInt8) ∉ line) (rest : List UInt8) :
    findSub crlf (line ++ (crlf ++ rest)) = some line.length := by
  induction line with
  | nil => exact findSub_start (List.prefix_append crlf rest)
  | cons byte line ih =>
    have other : ¬ crlf.isPrefixOf (byte :: (line ++ (crlf ++ rest))) = true := by
      rw [List.isPrefixOf_iff_prefix, crlf, List.cons_prefix_cons]
      exact fun both => absent (both.1 ▸ List.mem_cons_self ..)
    rw [List.cons_append, findSub, if_neg other,
      ih fun member => absent (List.mem_cons_of_mem _ member)]
    rfl

theorem header_eq {body : List UInt8} {pos stop size : Nat} {line : String}
    (found : findCrlf body pos = some stop)
    (read : fromUtf8 ((body.drop pos).take (stop - pos)) = some line)
    (parsed : parseHex (trim (beforeFirst ';' line)) = some size) :
    header body pos = .ok (stop, size) := by
  refine ok_bind (okOr_ok.mpr found) (ok_bind (okOr_ok.mpr read) ?_)
  exact ok_bind (okOr_ok.mpr parsed) rfl

/-- **The header of a framed chunk.** -/
theorem header_framed {past rest : List UInt8} {size : Nat} {extension : Option String}
    (onLine : OnLine extension) (small : size < 2 ^ 64) :
    header (past ++ (utf8 (lineOf size extension) ++ (crlf ++ rest))) past.length =
      .ok (past.length + (utf8 (lineOf size extension)).length, size) := by
  have found : findCrlf (past ++ (utf8 (lineOf size extension) ++ (crlf ++ rest))) past.length =
      some (past.length + (utf8 (lineOf size extension)).length) := by
    unfold findCrlf
    rw [if_pos (by simp), List.drop_left, findSub_crlf (lineOf_break onLine)]
    rfl
  have parsed : parseHex (trim (beforeFirst ';' (lineOf size extension))) = some size := by
    rw [lineOf_size, parseHex_toDigits small]
  refine header_eq found ?_ parsed
  rw [List.drop_left, Nat.add_sub_cancel_left, List.take_left, fromUtf8_utf8]

theorem addUsize_ok {first second : Nat} (small : first + second < 2 ^ 64) :
    addUsize first second = .ok (first + second) :=
  if_pos small

/-- What stands between two positions. -/
theorem getRange_eq (past middle rest : List UInt8) :
    getRange (past ++ (middle ++ rest)) past.length (past.length + middle.length) = some middle := by
  unfold getRange
  rw [if_pos (by simp), List.drop_left, Nat.add_sub_cancel_left, List.take_left]

theorem skipCrlf_eq {past : List UInt8} (rest : List UInt8) (small : past.length < 2 ^ 63) :
    skipCrlf (past ++ (crlf ++ rest)) past.length = .ok (past.length + 2) := by
  have there : getRange (past ++ (crlf ++ rest)) past.length (past.length + 2) = some crlf :=
    getRange_eq past crlf rest
  refine ok_bind (addUsize_ok (by omega)) ?_
  rw [if_pos there]
  rfl

theorem chunks_last {body : List UInt8} {pos stop : Nat} (fuel : Nat) (data : List UInt8)
    (read : header body pos = .ok (stop, 0)) (small : stop + 2 < 2 ^ 64) :
    chunks body (fuel + 1) pos data = .ok (data, stop + 2) := by
  rw [chunks, read]
  exact ok_bind rfl (ok_bind (addUsize_ok small) rfl)

theorem chunks_next {body chunk : List UInt8} {pos stop size after : Nat} (fuel : Nat)
    (data : List UInt8) (read : header body pos = .ok (stop, size)) (some' : size ≠ 0)
    (small : stop + 2 + size < 2 ^ 64)
    (got : getRange body (stop + 2) (stop + 2 + size) = some chunk)
    (skipped : skipCrlf body (stop + 2 + size) = .ok after) :
    chunks body (fuel + 1) pos data = chunks body fuel after (data ++ chunk) := by
  rw [chunks, read]
  refine ok_bind rfl (ok_bind (addUsize_ok (by omega)) ?_)
  rw [if_neg some']
  exact ok_bind (addUsize_ok small) (ok_bind (okOr_ok.mpr got) (ok_bind skipped rfl))

theorem crlf_length : crlf.length = 2 :=
  rfl

/-- **The loop reads every chunk that was framed**, whatever its data looks like. -/
theorem chunks_framed {last : Option String} (lastLine : OnLine last) (tail : List UInt8) :
    ∀ (parts : List Chunk) (past data : List UInt8) (fuel : Nat),
      (∀ part ∈ parts, part.data ≠ [] ∧ OnLine part.extension) → parts.length < fuel →
      (past ++ (parts.flatMap frame ++ (utf8 (lineOf 0 last) ++ (crlf ++ tail)))).length < 2 ^ 63 →
      chunks (past ++ (parts.flatMap frame ++ (utf8 (lineOf 0 last) ++ (crlf ++ tail)))) fuel
        past.length data =
        .ok (data ++ parts.flatMap (·.data),
          (past ++ (parts.flatMap frame ++ (utf8 (lineOf 0 last) ++ crlf))).length) := by
  intro parts
  induction parts with
  | nil =>
    intro past data fuel _ enough fits
    obtain ⟨fuel, rfl⟩ : ∃ less, fuel = less + 1 := ⟨fuel - 1, by omega⟩
    have read : header (past ++ (utf8 (lineOf 0 last) ++ (crlf ++ tail))) past.length =
        .ok (past.length + (utf8 (lineOf 0 last)).length, 0) := header_framed lastLine (by decide)
    simp only [List.flatMap_nil, List.nil_append, List.append_nil, List.length_append] at fits ⊢
    rw [chunks_last fuel data read (by omega)]
    rfl
  | cons part parts ih =>
    intro past data fuel each enough fits
    obtain ⟨fuel, rfl⟩ : ∃ less, fuel = less + 1 := ⟨fuel - 1, by omega⟩
    obtain ⟨full, onLine⟩ := each part (List.mem_cons_self ..)
    -- The body around the first chunk, from the point of view of each of its pieces.
    generalize remains : parts.flatMap frame ++ (utf8 (lineOf 0 last) ++ (crlf ++ tail)) = rest at *
    generalize line : utf8 (lineOf part.data.length part.extension) = before at *
    have body : past ++ ((part :: parts).flatMap frame ++ (utf8 (lineOf 0 last) ++ (crlf ++ tail))) =
        past ++ (before ++ (crlf ++ (part.data ++ (crlf ++ rest)))) := by
      rw [List.flatMap_cons, frame, line, ← remains]
      simp only [List.append_assoc]
    have stops : (past ++ ((part :: parts).flatMap frame ++ (utf8 (lineOf 0 last) ++ crlf))).length =
        ((past ++ (before ++ (crlf ++ (part.data ++ crlf)))) ++
          (parts.flatMap frame ++ (utf8 (lineOf 0 last) ++ crlf))).length := by
      rw [List.flatMap_cons, frame, line]
      simp only [List.append_assoc]
    rw [body] at fits ⊢
    rw [stops]
    have size : past.length + before.length + 2 + part.data.length < 2 ^ 63 := by
      simp only [List.length_append, crlf_length] at fits
      omega
    have read : header (past ++ (before ++ (crlf ++ (part.data ++ (crlf ++ rest))))) past.length =
        .ok (past.length + before.length, part.data.length) := by
      rw [← line]
      exact header_framed onLine (by omega)
    have got : getRange (past ++ (before ++ (crlf ++ (part.data ++ (crlf ++ rest)))))
        (past.length + before.length + 2) (past.length + before.length + 2 + part.data.length) =
          some part.data := by
      have range := getRange_eq (past ++ (before ++ crlf)) part.data (crlf ++ rest)
      simpa only [List.append_assoc, List.length_append, crlf_length, Nat.add_assoc] using range
    have skipped : skipCrlf (past ++ (before ++ (crlf ++ (part.data ++ (crlf ++ rest)))))
        (past.length + before.length + 2 + part.data.length) =
          .ok (past ++ (before ++ (crlf ++ (part.data ++ crlf)))).length := by
      have small : (past ++ (before ++ (crlf ++ part.data))).length < 2 ^ 63 := by
        simp only [List.length_append, crlf_length]
        omega
      have skip := skipCrlf_eq rest small
      simpa only [List.append_assoc, List.length_append, crlf_length, Nat.add_assoc] using skip
    rw [chunks_next fuel data read (by simpa using full) (by omega) got skipped]
    have next := ih (past ++ (before ++ (crlf ++ (part.data ++ crlf)))) (data ++ part.data) fuel
      (fun other member => each other (List.mem_cons_of_mem _ member))
      (by simpa using enough) (by simpa only [List.append_assoc] using fits)
    simpa only [List.append_assoc, List.flatMap_cons] using next

/-! ### The trailers -/

theorem splitCrlf_line (rest : List Char) :
    ∀ {line : List Char}, ¬ ['\r', '\n'] <:+: line →
      splitCrlf (line ++ '\r' :: '\n' :: rest) = line :: splitCrlf rest := by
  intro line
  induction line with
  | nil =>
    intro _
    rw [List.nil_append, splitCrlf]
  | cons char line ih =>
    intro unbroken
    have next := ih fun inside => unbroken (List.infix_cons inside)
    rw [List.cons_append, splitCrlf, next]
    -- A carriage return at the end of the line is followed by the one of the line break.
    rintro others rfl same
    cases line with
    | nil => cases same
    | cons other line =>
      cases same
      exact unbroken ⟨[], line, rfl⟩

theorem infix_cons_break {char : Char} (other : char ≠ '\r') {line : List Char}
    (unbroken : ¬ ['\r', '\n'] <:+: line) : ¬ ['\r', '\n'] <:+: char :: line := by
  rw [List.infix_cons_iff, List.cons_prefix_cons]
  rintro (⟨same, _⟩ | inside)
  · exact other same.symm
  · exact unbroken inside

theorem trailer_unbroken {trailer : String × String} (valid : TrailerLine trailer) :
    ¬ ['\r', '\n'] <:+: (trailer.1 ++ ":" ++ trailer.2).toList := by
  have named : ∀ name : List Char, '\r' ∉ name →
      ¬ ['\r', '\n'] <:+: name ++ (':' :: trailer.2.toList) := by
    intro name
    induction name with
    | nil => exact fun _ => infix_cons_break (by decide) valid.value
    | cons char name ih =>
      intro absent
      refine infix_cons_break (fun same => ?_) (ih fun inside => ?_)
      · exact absent (same ▸ List.mem_cons_self ..)
      · exact absent (List.mem_cons_of_mem _ inside)
  simpa [String.toList_append] using named trailer.1.toList valid.breaks.1

/-- The lines of the trailers are cut apart again. -/
theorem splitCrlf_trailerText :
    ∀ {trailers : List (String × String)}, (∀ trailer ∈ trailers, TrailerLine trailer) →
      splitCrlf (trailerText trailers) =
        trailers.map (fun trailer => (trailer.1 ++ ":" ++ trailer.2).toList) ++ [[], []] := by
  intro trailers
  induction trailers with
  | nil => exact fun _ => rfl
  | cons trailer trailers ih =>
    intro valid
    have next := ih fun other member => valid other (List.mem_cons_of_mem _ member)
    unfold trailerText at next ⊢
    rw [List.flatMap_cons, List.append_assoc, List.append_assoc]
    change splitCrlf (_ ++ '\r' :: '\n' :: (trailers.flatMap _ ++ ['\r', '\n'])) = _
    rw [splitCrlf_line _ (trailer_unbroken (valid trailer (List.mem_cons_self ..))), next]
    rfl

theorem dropWhile_stop {first rest : List Char} {char : Char} (plain : isWhitespace char = false) :
    (first ++ char :: rest).dropWhile isWhitespace = first.dropWhile isWhitespace ++ char :: rest := by
  rw [List.dropWhile_append]
  split
  · rename_i none'
    rw [List.isEmpty_iff.mp none', List.dropWhile_cons_of_neg (by simp [plain])]
    rfl
  · rfl

/-- What is trimmed ends without a blank. -/
theorem reverse_trimmed {text : String} (trimmed : trim text = text) :
    text.toList.reverse.dropWhile isWhitespace = text.toList.reverse := by
  have chars := congrArg (fun text => text.toList.reverse) trimmed
  unfold trim at chars
  rw [String.toList_ofList, List.reverse_reverse] at chars
  rw [← chars, List.dropWhile_idempotent]

/-- **A line of a trailer is read as its name without blanks around it, and its value.** -/
theorem trailerOf_line {trailer : String × String} (valid : TrailerLine trailer) :
    trailerOf (trailer.1 ++ ":" ++ trailer.2) =
      if trim trailer.1 = trailerSignature then none else some (trim trailer.1, trailer.2) := by
  have line : trim (trailer.1 ++ ":" ++ trailer.2) =
      String.ofList (trailer.1.toList.dropWhile isWhitespace ++ ':' :: trailer.2.toList) := by
    have whole : (trailer.1 ++ ":" ++ trailer.2).toList = trailer.1.toList ++ ':' :: trailer.2.toList := by
      simp [String.toList_append]
    unfold trim
    rw [whole, dropWhile_stop (by decide), List.reverse_append, List.reverse_cons, List.append_assoc,
      List.singleton_append, dropWhile_stop (by decide), reverse_trimmed valid.trimmed]
    simp
  have absent : ':' ∉ trailer.1.toList.dropWhile isWhitespace := fun inside =>
    valid.colon ((List.dropWhile_sublist _).subset inside)
  have stays : ∀ char ∈ trailer.1.toList.dropWhile isWhitespace, (char != ':') = true := by
    rintro char member
    exact bne_iff_ne.mpr fun same => absent (same ▸ member)
  have cut : splitOnce ':' (trim (trailer.1 ++ ":" ++ trailer.2)) =
      some (String.ofList (trailer.1.toList.dropWhile isWhitespace), trailer.2) := by
    rw [line]
    unfold splitOnce beforeFirst
    rw [String.toList_ofList, if_pos (by simp), List.takeWhile_append_of_pos stays,
      List.dropWhile_append_of_pos stays]
    simp
  have name : trim (String.ofList (trailer.1.toList.dropWhile isWhitespace)) = trim trailer.1 := by
    unfold trim
    rw [String.toList_ofList, List.dropWhile_idempotent]
  have low : toAsciiLowercase (trim trailer.1) = trim trailer.1 := by
    have fixed : ∀ char ∈ trailer.1.toList, char.toLower = char := by
      have same := congrArg String.toList valid.lower
      unfold toAsciiLowercase at same
      rw [String.toList_ofList] at same
      exact List.map_inj_left.mp (same.trans (List.map_id' trailer.1.toList).symm)
    have inside : ∀ char ∈ (trim trailer.1).toList, char.toLower = char := by
      intro char member
      unfold trim at member
      rw [String.toList_ofList, List.mem_reverse] at member
      have once := List.mem_reverse.mp ((List.dropWhile_sublist _).subset member)
      exact fixed char ((List.dropWhile_sublist _).subset once)
    unfold toAsciiLowercase
    rw [List.map_congr_left inside, List.map_id', String.ofList_toList]
  unfold trailerOf
  rw [cut]
  simp only [Option.bind_eq_bind, Option.bind_some, name, low, valid.trimmed]

/-- What the decoder takes for the trailers. -/
def trailersRead (trailers : List (String × String)) : List (String × String) :=
  trailers.filterMap fun trailer =>
    if trim trailer.1 = trailerSignature then none else some (trim trailer.1, trailer.2)

theorem trailersOf_framed {trailers : List (String × String)}
    (valid : ∀ trailer ∈ trailers, TrailerLine trailer) :
    trailersOf (utf8 (String.ofList (trailerText trailers))) = trailersRead trailers := by
  have blank : trailerOf (String.ofList []) = none := by decide
  unfold trailersOf trailersRead
  rw [fromUtf8Lossy_utf8, String.toList_ofList, splitCrlf_trailerText valid, List.filterMap_append,
    List.filterMap_map]
  simp only [List.filterMap_cons, List.filterMap_nil, blank, List.append_nil]
  refine List.filterMap_congr fun trailer member => ?_
  rw [Function.comp_apply, String.ofList_toList, trailerOf_line (valid trailer member)]

/-- The trailers are read as they were written when no name has blanks around it. -/
theorem trailersRead_iff (trailers : List (String × String)) :
    trailersRead trailers = trailers.filter (fun trailer => trailer.1 ≠ trailerSignature) ↔
      ∀ trailer ∈ trailers, trim trailer.1 = trailer.1 := by
  have plain : trim trailerSignature = trailerSignature := by decide
  have shorter : ∀ rest : List (String × String), (trailersRead rest).length ≤
      (rest.filter fun trailer => trailer.1 ≠ trailerSignature).length := by
    intro rest
    induction rest with
    | nil => exact le_refl _
    | cons trailer rest ih =>
      unfold trailersRead at ih ⊢
      by_cases signature : trailer.1 = trailerSignature
      · simpa [signature, plain] using ih
      · by_cases hidden : trim trailer.1 = trailerSignature
        · simpa [signature, hidden] using ih.trans (Nat.le_succ _)
        · simpa [signature, hidden] using ih
  induction trailers with
  | nil => simp [trailersRead]
  | cons trailer rest ih =>
    have less := shorter rest
    unfold trailersRead at ih less ⊢
    rw [List.forall_mem_cons]
    refine Iff.trans ?_ (and_congr Iff.rfl ih)
    by_cases signature : trailer.1 = trailerSignature
    · simp [signature, plain]
    · by_cases hidden : trim trailer.1 = trailerSignature
      · have differs : trim trailer.1 ≠ trailer.1 := fun same => signature (same ▸ hidden)
        rw [List.filterMap_cons_none (by simp [hidden]), List.filter_cons_of_pos (by simp [signature])]
        constructor
        · intro same
          rw [same, List.length_cons] at less
          omega
        · exact fun both => absurd both.1 differs
      · rw [List.filterMap_cons_some (b := (trim trailer.1, trailer.2)) (by simp [hidden]),
          List.filter_cons_of_pos (by simp [signature]), List.cons.injEq, Prod.ext_iff]
        simp

/-! ### Every body -/

/-- One round of the loop: from the header at a position to the position after its chunk. -/
def Round (body : List UInt8) (pos after : Nat) : Prop :=
  ∃ stop size chunk, header body pos = .ok (stop, size) ∧ size ≠ 0 ∧
    getRange body (stop + 2) (stop + 2 + size) = some chunk ∧
    skipCrlf body (stop + 2 + size) = .ok after

/-- The size that a header announces can be added to its position. -/
def Fits (body : List UInt8) (pos : Nat) : Prop :=
  ∀ stop size, header body pos = .ok (stop, size) → stop + 2 + size < 2 ^ 64

/-- The decoder answers, be it with an error. -/
def Answers {α : Type} (result : Except Fault α) : Prop :=
  ∀ fault, result = .error fault → ∃ error, fault = .error error

theorem findCrlf_range {body : List UInt8} {pos stop : Nat} (found : findCrlf body pos = some stop) :
    pos ≤ stop ∧ stop + 2 ≤ body.length := by
  unfold findCrlf at found
  split at found
  · rename_i inside
    obtain ⟨index, here, rfl⟩ := Option.map_eq_some_iff.mp found
    have fits := findSub_length here
    rw [List.length_drop, crlf_length] at fits
    omega
  · cases found

theorem header_range {body : List UInt8} {pos stop size : Nat}
    (read : header body pos = .ok (stop, size)) : pos ≤ stop ∧ stop + 2 ≤ body.length := by
  obtain ⟨found, here, read⟩ := Lib.bind_ok read
  obtain ⟨line, _, read⟩ := Lib.bind_ok read
  obtain ⟨parsed, _, same⟩ := Lib.bind_ok read
  cases same
  exact findCrlf_range (okOr_ok.mp here)

theorem getRange_some {body chunk : List UInt8} {start stop : Nat}
    (got : getRange body start stop = some chunk) : stop ≤ body.length := by
  unfold getRange at got
  split at got
  · rename_i range
    exact range.2
  · cases got

/-- The position after a chunk that was there. -/
theorem skipCrlf_range {body : List UInt8} {pos : Nat} (inside : pos ≤ body.length)
    (small : body.length < 2 ^ 63) :
    ∃ after, skipCrlf body pos = .ok after ∧ pos ≤ after ∧ after ≤ body.length := by
  by_cases there : getRange body pos (pos + 2) = some crlf
  · exact ⟨pos + 2, ok_bind (addUsize_ok (by omega)) (by rw [if_pos there]; rfl), by omega,
      getRange_some there⟩
  · exact ⟨pos, ok_bind (addUsize_ok (by omega)) (by rw [if_neg there]; rfl), le_refl _, inside⟩

/-- **The loop answers exactly when every header that it reaches fits.** -/
theorem chunks_answers {body : List UInt8} (small : body.length < 2 ^ 63) :
    ∀ (fuel pos : Nat) (data : List UInt8), pos ≤ body.length → body.length < pos + fuel →
      (Answers (chunks body fuel pos data) ↔
        ∀ target, Relation.ReflTransGen (Round body) pos target → Fits body target) := by
  intro fuel
  induction fuel with
  | zero =>
    intro pos data inside enough
    omega
  | succ fuel ih =>
    intro pos data inside enough
    cases read : header body pos with
    | error error =>
      have fails : chunks body (fuel + 1) pos data = .error (.error error) := by
        rw [chunks, read]
        rfl
      rw [fails]
      refine ⟨fun _ target reached => ?_, fun _ fault same => ⟨error, by cases same; rfl⟩⟩
      rcases reached.cases_head with rfl | ⟨middle, ⟨stop, size, chunk, other, _⟩, _⟩
      · intro stop size other
        rw [read] at other
        cases other
      · rw [read] at other
        cases other
    | ok found =>
      obtain ⟨stop, size⟩ := found
      obtain ⟨above, below⟩ := header_range read
      by_cases last : size = 0
      · subst last
        rw [chunks_last fuel data read (by omega)]
        refine ⟨fun _ target reached => ?_, fun _ fault same => by cases same⟩
        rcases reached.cases_head with rfl | ⟨middle, ⟨stop', size, chunk, other, some', _⟩, _⟩
        · intro stop' size other
          rw [read] at other
          cases other
          omega
        · rw [read] at other
          cases other
          exact absurd rfl some'
      · by_cases fits : stop + 2 + size < 2 ^ 64
        · have here : Fits body pos := by
            intro stop' size' other
            rw [read] at other
            cases other
            exact fits
          cases got : getRange body (stop + 2) (stop + 2 + size) with
          | none =>
            have fails : chunks body (fuel + 1) pos data = .error (.error .truncatedChunk) := by
              rw [chunks, read]
              refine ok_bind rfl (ok_bind (addUsize_ok (by omega)) ?_)
              rw [if_neg last]
              refine ok_bind (addUsize_ok fits) ?_
              rw [got]
              rfl
            rw [fails]
            refine ⟨fun _ target reached => ?_, fun _ fault same => ⟨_, by cases same; rfl⟩⟩
            rcases reached.cases_head with rfl | ⟨middle, ⟨stop', size', chunk, other, _, some', _⟩, _⟩
            · exact here
            · rw [read] at other
              cases other
              rw [got] at some'
              cases some'
          | some chunk =>
            obtain ⟨after, skipped, later, within⟩ := skipCrlf_range (getRange_some got) small
            rw [chunks_next fuel data read last fits got skipped,
              ih after _ within (by omega)]
            constructor
            · intro each target reached
              rcases reached.cases_head with rfl | ⟨middle, ⟨stop', size', _, other, _, _, next⟩, rest⟩
              · exact here
              · rw [read] at other
                cases other
                rw [skipped] at next
                cases next
                exact each target rest
            · intro each target reached
              exact each target (.head ⟨stop, size, chunk, read, last, got, skipped⟩ reached)
        · have fails : chunks body (fuel + 1) pos data = .error .panic := by
            rw [chunks, read]
            refine ok_bind rfl (ok_bind (addUsize_ok (by omega)) ?_)
            rw [if_neg last]
            unfold addUsize
            rw [if_neg fits]
            rfl
          rw [fails]
          constructor
          · intro answers
            obtain ⟨error, same⟩ := answers _ rfl
            cases same
          · intro each
            exact absurd (each pos .refl stop size read) fits

theorem decode_answers {body : List UInt8} (small : body.length < 2 ^ 63) :
    Answers (decode body) ↔
      ∀ target, Relation.ReflTransGen (Round body) 0 target → Fits body target := by
  rw [← chunks_answers small (body.length + 1) 0 [] (Nat.zero_le _) (by omega)]
  unfold decode
  cases chunks body (body.length + 1) 0 [] with
  | error fault => exact ⟨fun answers other same => answers other (by cases same; rfl),
      fun answers other same => answers other (by cases same; rfl)⟩
  | ok found =>
    refine ⟨fun _ fault same => ?_, fun _ fault same => ?_⟩
    · cases same
    · cases same

/-! ### Framing and decoding -/

/-- What was framed is decoded, and the decoder answers every body in which no header that it
reaches announces a size that overflows. -/
theorem decode_framed (parts : List Chunk) (last : Option String)
    (trailers : List (String × String)) (body : List UInt8)
    (each : ∀ part ∈ parts, part.data ≠ [] ∧ OnLine part.extension) (lastLine : OnLine last)
    (valid : ∀ trailer ∈ trailers, TrailerLine trailer)
    (small : (framed parts last trailers).length < 2 ^ 63) (bodySmall : body.length < 2 ^ 63) :
    (decode (framed parts last trailers) =
        .ok { data := parts.flatMap (·.data),
              trailers := trailers.filter fun trailer => trailer.1 ≠ trailerSignature } ↔
      ∀ trailer ∈ trailers, trim trailer.1 = trailer.1) ∧
    (Answers (decode body) ↔
      ∀ target, Relation.ReflTransGen (Round body) 0 target → Fits body target) := by
  refine ⟨?_, decode_answers bodySmall⟩
  have shape : framed parts last trailers = [] ++ (parts.flatMap frame ++
      (utf8 (lineOf 0 last) ++ (crlf ++ utf8 (String.ofList (trailerText trailers))))) := by
    unfold framed
    simp only [List.append_assoc, List.nil_append]
  have enough : parts.length < (framed parts last trailers).length + 1 := by
    have longer : parts.length ≤ (parts.flatMap frame).length := by
      clear each shape small
      induction parts with
      | nil => exact le_refl _
      | cons part parts ih =>
        simp only [List.flatMap_cons, List.length_append, List.length_cons, frame, crlf_length]
        omega
    rw [shape]
    simp only [List.length_append]
    omega
  have read := chunks_framed lastLine (utf8 (String.ofList (trailerText trailers))) parts [] [] _
    each enough (shape ▸ small)
  have rest : (framed parts last trailers).drop
      (([] : List UInt8) ++ (parts.flatMap frame ++ (utf8 (lineOf 0 last) ++ crlf))).length =
        utf8 (String.ofList (trailerText trailers)) := by
    have cut : framed parts last trailers = (([] : List UInt8) ++ (parts.flatMap frame ++
        (utf8 (lineOf 0 last) ++ crlf))) ++ utf8 (String.ofList (trailerText trailers)) := by
      rw [shape]
      simp only [List.append_assoc]
    rw [cut, List.drop_left]
  have decoded : decode (framed parts last trailers) =
      .ok { data := parts.flatMap (·.data), trailers := trailersRead trailers } := by
    rw [← shape] at read
    refine ok_bind read ?_
    change (Except.ok ⟨_, trailersOf ((framed parts last trailers).drop _)⟩ : Except Fault Decoded) = _
    rw [rest, trailersOf_framed valid]
    rfl
  rw [decoded, ← trailersRead_iff, Except.ok.injEq, Decoded.mk.injEq]
  exact and_iff_right rfl

theorem decode_framed_sample :
    (decode (framed [⟨utf8 "a\r\nb", some "chunk-signature=x"⟩] none [("x-amz-meta", "v")]) =
      .ok { data := utf8 "a\r\nb", trailers := [("x-amz-meta", "v")] } ↔
        ∀ trailer ∈ [("x-amz-meta", "v")], trim trailer.1 = trailer.1) ∧
    (Answers (decode (utf8 "zz")) ↔
      ∀ target, Relation.ReflTransGen (Round (utf8 "zz")) 0 target → Fits (utf8 "zz") target) := by
  have valid : TrailerLine ("x-amz-meta", "v") :=
    ⟨by decide, by decide, ⟨by decide, by decide⟩, by decide, by decide⟩
  refine decode_framed [⟨utf8 "a\r\nb", some "chunk-signature=x"⟩] none [("x-amz-meta", "v")]
    (utf8 "zz") ?_ ?_ ?_ (by decide) (by decide)
  · intro part member
    rw [List.mem_singleton.mp member]
    refine ⟨by decide, ?_⟩
    rintro _ ⟨⟩
    decide
  · rintro _ ⟨⟩
  · intro trailer member
    rw [List.mem_singleton.mp member]
    exact valid

/-- A size that cannot be added to the position after its header. -/
theorem size_overflows : decode (utf8 "ffffffffffffffff\r\n") = .error .panic := by
  decide

end CloudTwin.S3.Chunked
