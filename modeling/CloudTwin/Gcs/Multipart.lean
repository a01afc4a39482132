/-
**Multipart bodies** (`gcp/storage/handlers.rs`, `parse_multipart`).

Parts stand between delimiters: `--` and the boundary, at the start of a line. A part is its header
lines, a blank line and its data, taken as it is up to the next delimiter.

* `parseMultipart` — the parser, with every slice checked; `parseMultipart_total`, it always returns.
* `Part`, `build` — a body built of parts; `splitPart_bytes`, what is made of one.
* `partsFrom_encode` — the loop over what was built.
* `parts_build` — parsing what was built gives the parts back, if no part holds a delimiter.
-/

import CloudTwin.Lib.Lines
import CloudTwin.Lib.Utf8

namespace CloudTwin.Gcs.Multipart

open Lib Lib.Text
open Lib.Lines (lines linesGo linesGo_line linesGo_last)

/-! ### The parser -/

def crlf : List UInt8 := [13, 10]

def dashes : List UInt8 := [45, 45]

/-- The value of a `Content-Type` line. -/
def typeOfLine (line : String) : Option String :=
  (splitOnce ':' line).bind fun parts =>
    if eqIgnoreAsciiCase (trim parts.1) "content-type" then some (trim parts.2) else none

/-- The value of the first `Content-Type` line, empty if there is none. -/
def contentType (lines : List String) : String :=
  (lines.findSome? typeOfLine).getD ""

/-- The header lines and the data of a part. -/
def splitPart (part : List UInt8) : Option (List UInt8 × List UInt8) :=
  if crlf.isPrefixOf part then
    (slice part 0 0).bind fun head => (sliceFrom part 2).map fun data => (head, data)
  else
    match findFrom part (crlf ++ crlf) 0 with
    | some stop =>
      (slice part 0 stop).bind fun head => (sliceFrom part (stop + 4)).map fun data => (head, data)
    | none => (sliceFrom part part.length).map fun data => (part, data)

/-- The loop: `found` is where a delimiter stands. `none` is a panic, or that the fuel is used up. -/
def partsFrom (body delim : List UInt8) : Nat → Nat → Option (List (String × List UInt8))
  | 0, _ => none
  | fuel + 1, found =>
    let pos := found + delim.length
    (sliceFrom body pos).bind fun rest =>
      if dashes.isPrefixOf rest then some []
      else
        match findFrom body [10] pos with
        | none => some []
        | some lineEnd =>
          let stop := (findFrom body (crlf ++ delim) (lineEnd + 1)).getD body.length
          (slice body (lineEnd + 1) stop).bind fun part =>
            (splitPart part).bind fun pieces =>
              let entry := (contentType (lines (fromUtf8Lossy pieces.1)), pieces.2)
              if body.length ≤ stop then some [entry]
              else (partsFrom body delim fuel (stop + 2)).map fun parts => entry :: parts

/-- Parse a `multipart/related` body into `(content-type, body)` parts. Part bodies are taken verbatim
(binary-safe) up to the next delimiter. -/
def parseMultipart (body : List UInt8) (boundary : String) : Option (List (String × List UInt8)) :=
  let delim := dashes ++ utf8 boundary
  match findFrom body delim 0 with
  | none => some []
  | some found => partsFrom body delim (body.length + 1) found

/-! ### It always returns -/

theorem splitPart_total (part : List UInt8) : ∃ pieces, splitPart part = some pieces := by
  unfold splitPart
  split
  · rename_i starts
    have long := (List.isPrefixOf_iff_prefix.mp starts).length_le
    rw [slice, if_pos (by omega), sliceFrom, if_pos (show 2 ≤ part.length from long)]
    exact ⟨_, rfl⟩
  · split
    · rename_i stop found
      have bounds := (findFrom_bounds found).2
      rw [show (crlf ++ crlf).length = 4 from rfl] at bounds
      rw [slice, if_pos (by omega), sliceFrom, if_pos (by omega)]
      exact ⟨_, rfl⟩
    · rw [sliceFrom, if_pos (le_refl _)]
      exact ⟨_, rfl⟩

theorem partsFrom_total (body delim : List UInt8) : ∀ (fuel found : Nat),
    found + delim.length ≤ body.length → body.length < fuel + found →
      ∃ parts, partsFrom body delim fuel found = some parts := by
  intro fuel
  induction fuel with
  | zero =>
    intro found inside enough
    omega
  | succ fuel ih =>
    intro found inside enough
    unfold partsFrom
    dsimp only
    rw [sliceFrom, if_pos inside, Option.bind_some]
    split
    · exact ⟨_, rfl⟩
    · split
      · exact ⟨_, rfl⟩
      · rename_i lineEnd there
        have line := findFrom_bounds there
        rw [List.length_singleton] at line
        cases next : findFrom body (crlf ++ delim) (lineEnd + 1) with
        | none =>
          rw [Option.getD_none, slice, if_pos (by omega), Option.bind_some]
          obtain ⟨pieces, split⟩ := splitPart_total
            ((body.drop (lineEnd + 1)).take (body.length - (lineEnd + 1)))
          rw [split, Option.bind_some, if_pos (le_refl _)]
          exact ⟨_, rfl⟩
        | some stop =>
          have bounds := findFrom_bounds next
          rw [List.length_append, show crlf.length = 2 from rfl] at bounds
          rw [Option.getD_some, slice, if_pos (by omega), Option.bind_some]
          obtain ⟨pieces, split⟩ := splitPart_total ((body.drop (lineEnd + 1)).take
            (stop - (lineEnd + 1)))
          rw [split, Option.bind_some]
          split
          · exact ⟨_, rfl⟩
          · obtain ⟨parts, rest⟩ := ih (stop + 2) (by omega) (by omega)
            rw [rest]
            exact ⟨_, rfl⟩

/-- **Every body is parsed**, without a slice out of range. -/
theorem parseMultipart_total (body : List UInt8) (boundary : String) :
    ∃ parts, parseMultipart body boundary = some parts := by
  unfold parseMultipart
  dsimp only
  split
  · exact ⟨_, rfl⟩
  · rename_i found there
    have bounds := findFrom_bounds there
    exact partsFrom_total _ _ _ _ bounds.2 (by omega)

/-! ### Bodies that were built -/

/-- A part: the blanks behind its delimiter, its header lines and its data. -/
structure Part where
  blanks : List UInt8
  headers : List String
  data : List UInt8

def delimiter (boundary : String) : List UInt8 := dashes ++ utf8 boundary

/-- The header lines, each with its end, the blank line and the data. -/
def Part.bytes (part : Part) : List UInt8 :=
  part.headers.flatMap (fun line => utf8 line ++ crlf) ++ (crlf ++ part.data)

/-- What stands behind a delimiter: the parts, each up to the next delimiter, and the closing `--`. -/
def encodeFrom (delim : List UInt8) : List Part → List UInt8 → List UInt8
  | [], epilogue => dashes ++ epilogue
  | part :: parts, epilogue =>
    part.blanks ++ 13 :: 10 :: (part.bytes ++ (crlf ++ delim ++ encodeFrom delim parts epilogue))

/-- A preamble ends in a line end. -/
def preambleBytes : Option (List UInt8) → List UInt8
  | none => []
  | some text => text ++ crlf

def build (boundary : String) (preamble : Option (List UInt8)) (parts : List Part)
    (epilogue : List UInt8) : List UInt8 :=
  preambleBytes preamble ++ (delimiter boundary ++ encodeFrom (delimiter boundary) parts epilogue)

/-- A line of a header: not empty, and no line end in it. -/
def HeaderLine (line : String) : Prop :=
  line ≠ "" ∧ '\r' ∉ line.toList ∧ '\n' ∉ line.toList

instance : DecidablePred HeaderLine := fun _ => inferInstanceAs (Decidable (_ ∧ _))

/-- Blanks are spaces and tabs, and no line of the part behind its first begins with the delimiter. -/
structure Part.Apart (delim : List UInt8) (part : Part) : Prop where
  blanks : ∀ byte ∈ part.blanks, byte = 32 ∨ byte = 9
  headers : ∀ line ∈ part.headers, HeaderLine line
  apart : ¬ crlf ++ delim <:+: part.bytes

instance (delim : List UInt8) (part : Part) : Decidable (part.Apart delim) :=
  decidable_of_iff
    ((∀ byte ∈ part.blanks, byte = 32 ∨ byte = 9) ∧ (∀ line ∈ part.headers, HeaderLine line) ∧
      ¬ crlf ++ delim <:+: part.bytes)
    ⟨fun all => ⟨all.1, all.2.1, all.2.2⟩, fun part => ⟨part.blanks, part.headers, part.apart⟩⟩

/-- The characters of a boundary; the first of the list is the apostrophe. -/
def boundaryChar (char : Char) : Bool :=
  char.isAlphanum ||
    char ∈ [Char.ofNat 39, '(', ')', '+', '_', ',', '-', '.', '/', ':', '=', '?', ' ']

/-! ### Header lines -/

/-- The header lines as one text, without the end of the last one. -/
def headText : String → List String → List Char
  | line, [] => line.toList
  | line, next :: rest => line.toList ++ '\r' :: '\n' :: headText next rest

theorem linesGo_headText (line : String) (rest : List String)
    (good : ∀ given ∈ line :: rest, HeaderLine given) :
    (linesGo [] (headText line rest)).map String.ofList = line :: rest := by
  induction rest generalizing line with
  | nil =>
    have this := good line List.mem_cons_self
    have some' : line.toList ≠ [] := fun empty => this.1 (String.toList_eq_nil_iff.mp empty)
    rw [headText, linesGo_last this.2.2 some', List.map_singleton, String.ofList_toList]
  | cons next rest ih =>
    have this := good line List.mem_cons_self
    rw [headText, linesGo_line this.2.2, List.map_cons, String.ofList_toList,
      ih next fun given member => good given (List.mem_cons_of_mem _ member)]

theorem utf8_headText (line next : String) (rest : List String) :
    utf8 (String.ofList (headText line (next :: rest))) =
      utf8 line ++ (crlf ++ utf8 (String.ofList (headText next rest))) := by
  simp only [utf8, headText, String.toList_ofList, List.flatMap_append, List.flatMap_cons]
  rfl

theorem headText_bytes (line : String) (rest : List String) :
    (line :: rest).flatMap (fun line => utf8 line ++ crlf) =
      utf8 (String.ofList (headText line rest)) ++ crlf := by
  induction rest generalizing line with
  | nil => rw [List.flatMap_singleton, headText, String.ofList_toList]
  | cons next rest ih =>
    rw [List.flatMap_cons, ih, utf8_headText]
    simp only [List.append_assoc]

theorem byte_not_mem {line : String} {byte : UInt8} (ascii : byte.toNat < 128)
    (plain : Char.ofNat byte.toNat ∉ line.toList) : byte ∉ utf8 line :=
  fun member => plain (mem_utf8 member ascii)

theorem HeaderLine.no_cr {line : String} (good : HeaderLine line) : (13 : UInt8) ∉ utf8 line :=
  byte_not_mem (by decide) good.2.1

/-- The header lines begin with a character that is no line end. -/
theorem headText_first {line : String} (good : HeaderLine line) (rest : List String) :
    ∃ first tail, utf8 (String.ofList (headText line rest)) = first :: tail ∧ first ≠ 13 := by
  obtain ⟨after, whole⟩ : ∃ after, utf8 (String.ofList (headText line rest)) = utf8 line ++ after := by
    cases rest with
    | nil => exact ⟨[], by rw [headText, String.ofList_toList, List.append_nil]⟩
    | cons next rest => exact ⟨_, utf8_headText line next rest⟩
  cases bytes : utf8 line with
  | nil =>
    have back := fromUtf8Lossy_utf8 line
    rw [bytes] at back
    exact absurd back.symm good.1
  | cons first tail =>
    refine ⟨first, tail ++ after, by rw [whole, bytes, List.cons_append], fun same => ?_⟩
    exact good.no_cr (bytes ▸ same ▸ List.mem_cons_self)

/-- **The blank line** is found behind the last header line. -/
theorem blankLine_found (line : String) (rest : List String)
    (good : ∀ given ∈ line :: rest, HeaderLine given) (data : List UInt8) :
    findSub (crlf ++ crlf) (utf8 (String.ofList (headText line rest)) ++ (crlf ++ (crlf ++ data))) =
      some (utf8 (String.ofList (headText line rest))).length := by
  induction rest generalizing line with
  | nil =>
    have starts : crlf ++ crlf <+: crlf ++ (crlf ++ data) := ⟨data, by rw [List.append_assoc]⟩
    have skipped := @findSub_skip _ _ 13 [10, 13, 10] _ (good line List.mem_cons_self).no_cr
      (crlf ++ (crlf ++ data))
    rw [headText, String.ofList_toList]
    refine skipped.trans ?_
    show (findSub (crlf ++ crlf) _).map _ = _
    rw [findSub_start starts, Option.map_some, Nat.zero_add]
  | cons next rest ih =>
    have found := ih next fun given member => good given (List.mem_cons_of_mem _ member)
    obtain ⟨first, tail, bytes, different⟩ :=
      headText_first (good next (List.mem_cons_of_mem _ List.mem_cons_self)) rest
    rw [utf8_headText, List.append_assoc, List.append_assoc]
    generalize utf8 (String.ofList (headText next rest)) = head at found bytes ⊢
    have skipped := @findSub_skip _ _ 13 [10, 13, 10] _ (good line List.mem_cons_self).no_cr
      (crlf ++ (head ++ (crlf ++ (crlf ++ data))))
    refine skipped.trans ?_
    -- The line end in front of another header line is no blank line.
    have away : ¬ (crlf ++ crlf).isPrefixOf (crlf ++ (head ++ (crlf ++ (crlf ++ data)))) = true := by
      rw [List.isPrefixOf_iff_prefix, List.prefix_append_right_inj, bytes]
      exact fun starts => different (List.cons_prefix_cons.mp starts).1.symm
    have once : findSub (crlf ++ crlf) (crlf ++ (head ++ (crlf ++ (crlf ++ data)))) =
        some (head.length + 2) := by
      have feed := @findSub_skip _ _ 13 [10, 13, 10] [10] (by decide) (head ++ (crlf ++ (crlf ++ data)))
      have rest' : findSub (13 :: [10, 13, 10]) (head ++ (crlf ++ (crlf ++ data))) =
        some head.length := found
      rw [rest', Option.map_some] at feed
      refine (if_neg away).trans ?_
      show (findSub (13 :: [10, 13, 10]) ([10] ++ (head ++ (crlf ++ (crlf ++ data))))).map _ = _
      rw [feed]
      rfl
    show (findSub (crlf ++ crlf) _).map _ = _
    rw [once, Option.map_some, List.length_append, List.length_append, Nat.add_comm, Nat.add_comm head.length]
    rfl

/-! ### One part -/

/-- **A part is split** into its header lines and its data. -/
theorem splitPart_bytes (part : Part) (good : ∀ line ∈ part.headers, HeaderLine line) :
    ∃ head, splitPart part.bytes = some (head, part.data) ∧ lines (fromUtf8Lossy head) = part.headers := by
  obtain ⟨blanks, headers, data⟩ := part
  cases headers with
  | nil =>
    refine ⟨[], ?_, rfl⟩
    have starts : crlf.isPrefixOf (crlf ++ data) = true :=
      List.isPrefixOf_iff_prefix.mpr (List.prefix_append _ _)
    show splitPart (crlf ++ data) = _
    rw [splitPart, if_pos starts, slice, if_pos ⟨le_refl _, Nat.zero_le _⟩]
    exact congrArg (Option.map _) (sliceFrom_append crlf data)
  | cons line rest =>
    have whole : Part.bytes ⟨blanks, line :: rest, data⟩ =
        utf8 (String.ofList (headText line rest)) ++ (crlf ++ (crlf ++ data)) := by
      rw [Part.bytes, headText_bytes, List.append_assoc]
    have found := blankLine_found line rest good data
    obtain ⟨first, tail, bytes, different⟩ := headText_first (good line List.mem_cons_self) rest
    refine ⟨utf8 (String.ofList (headText line rest)), ?_, ?_⟩
    · rw [whole]
      generalize utf8 (String.ofList (headText line rest)) = head at found bytes ⊢
      have away : ¬ crlf.isPrefixOf (head ++ (crlf ++ (crlf ++ data))) = true := by
        rw [List.isPrefixOf_iff_prefix, bytes]
        exact fun starts => different (List.cons_prefix_cons.mp starts).1.symm
      have there := @findFrom_append _ _ [] (head ++ (crlf ++ (crlf ++ data))) (crlf ++ crlf)
        (by decide) _ found
      rw [List.nil_append, List.length_nil, Nat.zero_add] at there
      have after := sliceFrom_append (head ++ (crlf ++ crlf)) data
      rw [List.append_assoc, List.append_assoc, List.length_append] at after
      rw [splitPart, if_neg away, there]
      simp only [slice_start, Option.bind_some]
      exact congrArg (Option.map _) after
    · rw [fromUtf8Lossy_utf8, lines, String.toList_ofList]
      exact linesGo_headText line rest good

/-! ### The loop over what was built -/

/-- What a part is parsed as. -/
def Part.entry (part : Part) : String × List UInt8 := (contentType part.headers, part.data)

/-- A delimiter holds no line end. -/
def LineFree (delim : List UInt8) : Prop := 13 ∉ delim ∧ 10 ∉ delim

/-- The line end behind a delimiter and its blanks. -/
theorem lineEnd_found {blanks : List UInt8} (isBlank : ∀ byte ∈ blanks, byte = 32 ∨ byte = 9)
    (before after : List UInt8) :
    findFrom (before ++ (blanks ++ 13 :: 10 :: after)) [10] before.length =
      some (before.length + (blanks.length + 1)) := by
  have absent : (10 : UInt8) ∉ blanks ++ [13] := by
    rw [List.mem_append, List.mem_singleton]
    rintro (member | wrong)
    · rcases isBlank _ member with wrong | wrong <;> cases wrong
    · cases wrong
  have skipped := @findSub_skip _ _ 10 [] _ absent (10 :: after)
  have starts : findSub [10] (10 :: after) = some 0 := findSub_start (List.prefix_append [10] after)
  rw [starts, Option.map_some, Nat.zero_add, List.length_append, List.append_assoc] at skipped
  exact findFrom_append (by decide) skipped

/-- The delimiter behind a part that holds none. -/
theorem next_found {delim : List UInt8} (lineFree : LineFree delim) {part : List UInt8}
    (apart : ¬ crlf ++ delim <:+: part) (before after : List UInt8) :
    findFrom (before ++ (part ++ (crlf ++ delim ++ after))) (crlf ++ delim) before.length =
      some (before.length + part.length) := by
  have absent : (13 : UInt8) ∉ 10 :: delim := by
    rw [List.mem_cons]
    exact fun wrong => wrong.elim (by decide) lineFree.1
  exact findFrom_append (List.cons_ne_nil _ _) (findSub_sentinel absent apart after)

theorem encodeFrom_open {delim : List UInt8} {part : Part} (good : part.Apart delim)
    (parts : List Part) (epilogue : List UInt8) :
    ¬ dashes.isPrefixOf (encodeFrom delim (part :: parts) epilogue) = true := by
  rw [List.isPrefixOf_iff_prefix, encodeFrom]
  intro starts
  cases blanks : part.blanks with
  | nil =>
    rw [blanks] at starts
    exact absurd (List.cons_prefix_cons.mp starts).1 (by decide)
  | cons first rest =>
    rw [blanks] at starts
    have isBlank := good.blanks first (blanks ▸ List.mem_cons_self)
    rw [← (List.cons_prefix_cons.mp starts).1] at isBlank
    rcases isBlank with wrong | wrong <;> cases wrong

/-- **The loop returns the parts** behind the delimiter it stands at. -/
theorem partsFrom_encode {delim : List UInt8} (lineFree : LineFree delim) (epilogue : List UInt8) :
    ∀ (parts : List Part) (before : List UInt8) (fuel : Nat),
      (∀ part ∈ parts, part.Apart delim) → parts.length < fuel →
      partsFrom (before ++ (delim ++ encodeFrom delim parts epilogue)) delim fuel before.length =
        some (parts.map Part.entry) := by
  intro parts
  induction parts with
  | nil =>
    intro before fuel good enough
    obtain ⟨fuel, rfl⟩ : ∃ less, fuel = less + 1 := ⟨fuel - 1, by omega⟩
    have rest := sliceFrom_append (before ++ delim) (encodeFrom delim [] epilogue)
    have closing : dashes.isPrefixOf (encodeFrom delim [] epilogue) = true :=
      List.isPrefixOf_iff_prefix.mpr (List.prefix_append _ _)
    rw [List.append_assoc, List.length_append] at rest
    unfold partsFrom
    dsimp only
    rw [rest, Option.bind_some, if_pos closing]
    rfl
  | cons part parts ih =>
    intro before fuel good enough
    obtain ⟨fuel, rfl⟩ : ∃ less, fuel = less + 1 := ⟨fuel - 1, by omega⟩
    have this := good part List.mem_cons_self
    -- The four places of the body that the round looks at.
    let start := before ++ delim ++ part.blanks ++ [13, 10]
    have opened := encodeFrom_open this parts epilogue
    have atDelim : before ++ (delim ++ encodeFrom delim (part :: parts) epilogue) =
        before ++ delim ++ (part.blanks ++ 13 :: 10 ::
          (part.bytes ++ (crlf ++ delim ++ encodeFrom delim parts epilogue))) :=
      (List.append_assoc _ _ _).symm
    have atStart : before ++ (delim ++ encodeFrom delim (part :: parts) epilogue) =
        start ++ (part.bytes ++ (crlf ++ delim ++ encodeFrom delim parts epilogue)) := by
      rw [atDelim]
      simp only [start, List.append_assoc, List.cons_append, List.nil_append]
    have atNext : before ++ (delim ++ encodeFrom delim (part :: parts) epilogue) =
        start ++ part.bytes ++ crlf ++ (delim ++ encodeFrom delim parts epilogue) := by
      rw [atStart]
      simp only [List.append_assoc]
    have later := ih (start ++ part.bytes ++ crlf) fuel
      (fun given member => good given (List.mem_cons_of_mem _ member))
      (by rw [List.length_cons] at enough; omega)
    have rest := sliceFrom_append (before ++ delim) (encodeFrom delim (part :: parts) epilogue)
    have line := lineEnd_found this.blanks (before ++ delim)
      (part.bytes ++ (crlf ++ delim ++ encodeFrom delim parts epilogue))
    have next := next_found lineFree this.apart start (encodeFrom delim parts epilogue)
    have taken := slice_append start part.bytes (crlf ++ delim ++ encodeFrom delim parts epilogue)
    obtain ⟨head, split, headers⟩ := splitPart_bytes part this.headers
    have long : ¬ (before ++ (delim ++ encodeFrom delim (part :: parts) epilogue)).length ≤
        start.length + part.bytes.length := by
      rw [atNext]
      simp only [List.length_append, show crlf.length = 2 from rfl]
      omega
    have startLength : start.length = before.length + delim.length + (part.blanks.length + 1) + 1 := by
      simp only [start, List.length_append, List.length_cons, List.length_nil]
      omega
    rw [← atNext, List.length_append, List.length_append, show crlf.length = 2 from rfl] at later
    rw [← atStart] at next taken
    rw [← atDelim, List.length_append] at line
    rw [List.append_assoc, List.length_append] at rest
    unfold partsFrom
    dsimp only
    rw [rest, Option.bind_some, if_neg opened, line]
    dsimp only
    rw [← startLength, next, Option.getD_some, taken, Option.bind_some, split, Option.bind_some,
      if_neg long, later, headers]
    rfl

/-! ### Bodies are parsed back -/

theorem delimiter_lineFree {boundary : String}
    (allowed : ∀ char ∈ boundary.toList, boundaryChar char = true) : LineFree (delimiter boundary) := by
  have absent : ∀ byte : UInt8, byte.toNat < 128 → boundaryChar (Char.ofNat byte.toNat) = false →
      byte ∉ dashes → byte ∉ delimiter boundary := by
    intro byte ascii other noDash member
    rcases List.mem_append.mp member with dash | inside
    · exact noDash dash
    · exact Bool.false_ne_true (other ▸ allowed _ (mem_utf8 inside ascii))
  exact ⟨absent 13 (by decide) (by decide) (by decide), absent 10 (by decide) (by decide) (by decide)⟩

theorem encodeFrom_length (delim : List UInt8) (parts : List Part) (epilogue : List UInt8) :
    parts.length < (encodeFrom delim parts epilogue).length := by
  induction parts with
  | nil =>
    rw [encodeFrom, List.length_append]
    exact Nat.lt_of_lt_of_le (by decide) (Nat.le_add_right _ _)
  | cons part parts ih =>
    rw [encodeFrom]
    simp only [List.length_append, List.length_cons]
    omega

/-- **The first delimiter** is the one behind the preamble. -/
theorem first_found {delim : List UInt8} (lineFree : LineFree delim) (some' : delim ≠ [])
    {preamble : Option (List UInt8)} (free : ∀ text ∈ preamble, ¬ delim <:+: text)
    (after : List UInt8) :
    findFrom (preambleBytes preamble ++ (delim ++ after)) delim 0 =
      some (preambleBytes preamble).length := by
  have starts : findSub delim (delim ++ after) = some 0 := findSub_start (List.prefix_append _ _)
  have found : findSub delim (preambleBytes preamble ++ (delim ++ after)) =
      some (preambleBytes preamble).length := by
    cases preamble with
    | none => exact starts
    | some text =>
      have feed := @findSub_behind _ _ delim [] 10 lineFree.2 some'
        (fun inside => some' (List.eq_nil_of_infix_nil inside)) (delim ++ after)
      have whole := findSub_behind lineFree.1 some' (free text rfl) (10 :: (delim ++ after))
      rw [starts] at feed
      rw [show 10 :: (delim ++ after) = [] ++ 10 :: (delim ++ after) from rfl, feed] at whole
      rw [preambleBytes, List.append_assoc]
      refine whole.trans ?_
      rw [Option.map_some, Option.map_some, List.length_append]
      exact congrArg some (by simp only [List.length_nil, crlf, List.length_cons]; omega)
  have there := @findFrom_append _ _ [] _ _ some' _ found
  rw [List.nil_append, List.length_nil, Nat.zero_add] at there
  exact there

/-- **Parsing inverts building**, for parts of which no line behind the first begins with the
delimiter; and every body is parsed, under any boundary. -/
theorem parts_build :
    (∀ (body : List UInt8) (boundary : String), ∃ parts, parseMultipart body boundary = some parts) ∧
      ∀ (boundary : String) (preamble : Option (List UInt8)) (parts : List Part)
        (epilogue : List UInt8),
        boundary ≠ "" → (∀ char ∈ boundary.toList, boundaryChar char = true) →
        (∀ text ∈ preamble, ¬ delimiter boundary <:+: text) →
        (∀ part ∈ parts, part.Apart (delimiter boundary)) →
          parseMultipart (build boundary preamble parts epilogue) boundary =
            some (parts.map fun part => (contentType part.headers, part.data)) := by
  refine ⟨parseMultipart_total, ?_⟩
  intro boundary preamble parts epilogue _ allowed free good
  have lineFree := delimiter_lineFree allowed
  have some' : delimiter boundary ≠ [] := List.cons_ne_nil _ _
  have first := first_found lineFree some' free (encodeFrom (delimiter boundary) parts epilogue)
  have long := encodeFrom_length (delimiter boundary) parts epilogue
  unfold parseMultipart build
  dsimp only
  rw [show dashes ++ utf8 boundary = delimiter boundary from rfl, first]
  refine partsFrom_encode lineFree epilogue parts _ _ good ?_
  simp only [List.length_append]
  omega

/-- A body of two parts, the second without header lines, with a preamble and a blank. -/
theorem parts_build_two :
    parseMultipart (build "==b==" (some [104, 105])
        [⟨[32], ["Content-Type: a/b"], [123, 125]⟩, ⟨[], [], [13, 10]⟩] []) "==b==" =
      some [("a/b", [123, 125]), ("", [13, 10])] := by
  have pieces : splitOnce ':' "Content-Type: a/b" = some ("Content-Type", " a/b") := by
    decide
  have name : eqIgnoreAsciiCase (trim "Content-Type") "content-type" = true := by decide
  have value : trim " a/b" = "a/b" := by decide
  have headers : contentType ["Content-Type: a/b"] = "a/b" := by
    simp only [contentType, List.findSome?_cons, typeOfLine, pieces, Option.bind_some, name, if_true,
      value, Option.getD_some]
  have none : contentType [] = "" := rfl
  have chars : "==b==".toList = ['=', '=', 'b', '=', '='] := rfl
  have allowed : ∀ char ∈ "==b==".toList, boundaryChar char = true := by
    rw [chars]
    simp [boundaryChar]
  rw [parts_build.2 "==b==" (some [104, 105])
    [⟨[32], ["Content-Type: a/b"], [123, 125]⟩, ⟨[], [], [13, 10]⟩] [] (by decide)
    allowed (by decide +kernel) (by decide +kernel)]
  simp only [List.map_cons, List.map_nil, headers, none]

/-- **A part whose data begins with the delimiter** is cut in front of it. -/
theorem leading_delimiter_cuts :
    ¬ crlf ++ delimiter "b" <:+: [45, 45, 98] ∧
      parseMultipart (build "b" none [⟨[], [], [45, 45, 98]⟩] []) "b" ≠ some [("", [45, 45, 98])] := by
  decide

end CloudTwin.Gcs.Multipart
