/-
**Range downloads of blobs** (`azure/blob/handlers.rs`), and the three readers of ranges.

The range of a blob is read without a look for commas, and its first position is compared with the
content before the last one is read. The readers of S3, Cloud Storage and Azure are written apart.

* `parseRange`, `getBlob` — the range of a download and its answer, every subtraction and slice checked.
* `parseRange_eq`, `getBlob_eq` — what is answered; nothing underflows or leaves the content.
* `ReadsRange`, `getBlob_follows` — when a blob is answered as its header asks.
* `downloads_follow` — Cloud Storage and Azure, and where they agree with each other and with S3.
-/

import CloudTwin.Gcs.Download
import CloudTwin.S3.ByteRange

namespace CloudTwin.Azure

open Lib Lib.Text
open Gcs (resultOf resultOf_from resultOf_closed resultOf_bounds strictAnswer_result)

structure AzureBlob where
  container : String
  account : String
  name : String
  content : List UInt8
  contentType : String
  size : Int
  etag : String
  createdAt : String

/-- The positions before and after the dash. -/
def rangeOf (first last : String) (total : Nat) : Option (Option (Except Unit (Nat × Nat))) :=
  match parseU64 (trim first) with
  | none => some none
  | some start =>
    if total ≤ start then some (some (.error ()))
    else
      (checkedSub total 1).map fun limit =>
        let stop :=
          if (trim last).isEmpty then some limit
          else (parseU64 (trim last)).map fun stop => min stop limit
        stop.map fun stop => if stop < start then .error () else .ok (start, stop)

/-- Parse `bytes=start-[end]` into an inclusive range clamped to `total`. An error means the range is
unsatisfiable. -/
def parseRange (spec : String) (total : Nat) : Option (Option (Except Unit (Nat × Nat))) :=
  let value := trim spec
  if startsWith value "bytes=" = false then some none
  else
    match splitOnce '-' (String.ofList (value.toList.drop 6)) with
    | none => some none
    | some (first, last) => rangeOf first last total

/-- The answer of `get_blob` to a blob that was found, as far as it depends on the range: the header
`x-ms-range` goes before `range`. -/
def getBlob (blob : AzureBlob) (msRange range : Option String) : Option (RangeReply UInt8) := do
  let total := blob.content.length
  let parsed ← match msRange.or range with
    | none => some none
    | some text => parseRange text total
  match parsed with
  | some (.ok (start, stop)) =>
    let chunk ← sliceInclusive blob.content start stop
    return { status := 206, contentRange := some (start, stop, total), body := chunk }
  | some (.error _) => return { status := 416, contentRange := none, body := [] }
  | none => return { status := 200, contentRange := none, body := blob.content }

/-! ### What is read -/

/-- The first position of a header, which is read before all else. -/
def firstPosition (text : String) : Option Nat :=
  (headerParts text).bind fun parts => parseU64 (trim parts.1)

def isSuffix : RangeSpec → Bool
  | .suffix _ => true
  | _ => false

/-- What the reader makes of a header: the first position decides if it is not before the end. -/
def resultAt (text : String) (total : Nat) : Option (Except Unit (Nat × Nat)) :=
  (firstPosition text).bind fun start =>
    if total ≤ start then some (.error ())
    else (lenientRange text).map (resultOf total)

theorem rangeOf_eq (first last : List Char) (total : Nat) :
    rangeOf (String.ofList first) (String.ofList last) total =
      some ((parseU64 (trim (String.ofList first))).bind fun start =>
        if total ≤ start then some (.error ())
        else ((readNumbers (tidy first) (tidy last)).filter (RangeSpec.below (2 ^ 64))).map
          (resultOf total)) := by
  unfold rangeOf
  rw [readNumbers_below, trim_isEmpty, parseU64_trim, parseU64_trim]
  cases number : lenientNumber first with
  | none => rfl
  | some start =>
    have some' : (tidy first).isEmpty = false := by
      refine Bool.eq_false_iff.mpr fun empty => ?_
      rw [lenientNumber, List.isEmpty_iff.mp empty] at number
      cases number
    rw [Option.bind_some]
    show (if total ≤ start then _ else _) = some (if total ≤ start then _ else _)
    by_cases beyond : total ≤ start
    · rw [if_pos beyond, if_pos beyond]
    · rw [if_neg beyond, if_neg beyond, some', if_neg Bool.false_ne_true, Option.bind_some,
        checkedSub_one (by omega)]
      cases (tidy last).isEmpty with
      | true =>
        show some (some (if total - 1 < start then _ else _)) = some (some (resultOf total (.fromOn start)))
        rw [resultOf_from]
        have same : total - 1 < start ↔ total ≤ start ∨ total - 1 < start :=
          (or_iff_right beyond).symm
        rw [if_congr same rfl rfl]
      | false =>
        cases lenientNumber last with
        | none => rfl
        | some stop =>
          show some (some (if min stop (total - 1) < start then _ else _)) =
            some (some (resultOf total (.closed start stop)))
          rw [resultOf_closed]
          have same : min stop (total - 1) < start ↔ total ≤ start ∨ min stop (total - 1) < start :=
            (or_iff_right beyond).symm
          rw [if_congr same rfl rfl]

theorem parseRange_walk (text : String) (total : Nat) :
    parseRange text total =
      (headerParts text).elim (some none) fun parts => rangeOf parts.1 parts.2 total := by
  unfold parseRange headerParts
  dsimp only
  cases startsWith (trim text) "bytes=" with
  | false => rfl
  | true =>
    rw [if_neg Bool.true_eq_false.mp, if_pos rfl]
    cases splitOnce '-' (String.ofList ((trim text).toList.drop 6)) with
    | none => rfl
    | some parts => rfl

theorem parseRange_eq (text : String) (total : Nat) :
    parseRange text total = some (resultAt text total) := by
  rw [parseRange_walk]
  unfold resultAt firstPosition
  rw [lenientRange_eq]
  cases headerParts text with
  | none => rw [Option.elim_none, Option.bind_none, Option.bind_none]
  | some parts =>
    have whole := rangeOf_eq parts.1.toList parts.2.toList total
    rw [String.ofList_toList, String.ofList_toList] at whole
    rw [Option.elim_some, Option.bind_some, Option.bind_some]
    exact whole

/-- The reply to a result. -/
def replyTo (content : List UInt8) : Option (Except Unit (Nat × Nat)) → RangeReply UInt8
  | some (.ok (start, stop)) =>
    { status := 206, contentRange := some (start, stop, content.length)
      body := (content.drop start).take (stop - start + 1) }
  | some (.error _) => { status := 416, contentRange := none, body := [] }
  | none => { status := 200, contentRange := none, body := content }

theorem resultAt_bounds {text : String} {total start stop : Nat}
    (result : resultAt text total = some (.ok (start, stop))) : start ≤ stop ∧ stop < total := by
  obtain ⟨first, _, result⟩ := Option.bind_eq_some_iff.mp result
  split at result
  · cases result
  · obtain ⟨spec, _, result⟩ := Option.map_eq_some_iff.mp result
    exact resultOf_bounds result

/-- **Nothing underflows or leaves the content.** -/
theorem getBlob_eq (blob : AzureBlob) (msRange range : Option String) {text : String}
    (given : msRange.or range = some text) :
    getBlob blob msRange range =
      some (replyTo blob.content (resultAt text blob.content.length)) := by
  unfold getBlob
  dsimp only
  rw [given]
  dsimp only
  rw [parseRange_eq]
  cases result : resultAt text blob.content.length with
  | none => rfl
  | some outcome =>
    cases outcome with
    | error reason => rfl
    | ok window =>
      obtain ⟨start, stop⟩ := window
      have bounds := resultAt_bounds result
      have slice : sliceInclusive blob.content start stop =
          some ((blob.content.drop start).take (stop - start + 1)) := by
        rw [sliceInclusive, if_pos (by omega), show stop + 1 - start = stop - start + 1 by omega]
      show ((sliceInclusive blob.content start stop).bind fun body => _) = _
      rw [slice]
      rfl

/-- The result of a range that is read, if its first position is. -/
theorem resultAt_lenient {text : String} {spec : RangeSpec} (taken : lenientRange text = some spec)
    (forward : isSuffix spec = false) (total : Nat) :
    resultAt text total = some (resultOf total spec) := by
  obtain ⟨parts, named, numbers⟩ := Option.bind_eq_some_iff.mp (lenientRange_eq text ▸ taken)
  -- The first number of the range is the first position.
  have first : ∃ start, firstPosition text = some start ∧
      ((spec = .fromOn start) ∨ ∃ stop, spec = .closed start stop) := by
    rw [readNumbers_below] at numbers
    unfold firstPosition
    have number := parseU64_trim parts.1.toList
    rw [String.ofList_toList] at number
    rw [named, Option.bind_some, number]
    split at numbers
    · obtain ⟨length, _, rfl⟩ := Option.map_eq_some_iff.mp numbers
      cases forward
    · obtain ⟨start, isStart, rest⟩ := Option.bind_eq_some_iff.mp numbers
      refine ⟨start, isStart, ?_⟩
      split at rest
      · exact Or.inl (Option.some.inj rest).symm
      · obtain ⟨stop, _, rfl⟩ := Option.map_eq_some_iff.mp rest
        exact Or.inr ⟨stop, rfl⟩
  obtain ⟨start, position, shape⟩ := first
  unfold resultAt
  rw [position, Option.bind_some, taken, Option.map_some]
  by_cases beyond : total ≤ start
  · rw [if_pos beyond]
    rcases shape with rfl | ⟨stop, rfl⟩
    · rw [resultOf_from, if_pos (Or.inl beyond)]
    · rw [resultOf_closed, if_pos (Or.inl beyond)]
  · rw [if_neg beyond]

theorem replyTo_lenient {text : String} {spec : RangeSpec} (taken : lenientRange text = some spec)
    (forward : isSuffix spec = false) (content : List UInt8) :
    replyTo content (resultAt text content.length) = strictAnswer content (some spec) := by
  rw [resultAt_lenient taken forward, strictAnswer_result]
  cases resultOf content.length spec with
  | error reason => rfl
  | ok window => rfl

/-! ### What follows the header -/

/-- **The header is read as it asks**: a range has its unit in lower case and its numbers below 2^64,
or its first position is, and is not before the end; and what is no range does not become one without
its blanks and plus signs, nor a first position below 2^64 that is not before the end. -/
def ReadsRange (text : String) (total : Nat) : Prop :=
  ∀ parts, rangeParts text = some parts →
    (∀ spec, readSpec parts.first parts.last = some spec → parts.unit = "bytes=".toList ∧
      (spec.below (2 ^ 64) = true ∨
        ∃ start, digits parts.first = some start ∧ start < 2 ^ 64 ∧ total ≤ start)) ∧
    (readSpec parts.first parts.last = none → parts.unit = "bytes=".toList →
      (∀ spec, readNumbers (tidy parts.first) (tidy parts.last) = some spec →
        spec.below (2 ^ 64) = true → isSuffix spec = true) ∧
      ∀ start, digits (tidy parts.first) = some start → start < 2 ^ 64 → start < total)

theorem firstPosition_some {text : String} {start : Nat} :
    firstPosition text = some start ↔ ∃ parts, rangeParts text = some parts ∧
      parts.unit = "bytes=".toList ∧ digits (tidy parts.first) = some start ∧ start < 2 ^ 64 := by
  unfold firstPosition
  rw [headerParts_eq, Option.bind_assoc, Option.bind_eq_some_iff]
  refine exists_congr fun parts => and_congr_right fun _ => ?_
  split
  · rename_i unit
    rw [Option.bind_some, parseU64_trim, lenientNumber, Option.filter_eq_some_iff, decide_eq_true_eq]
    exact (and_iff_right unit).symm
  · rename_i other
    exact iff_of_false nofun fun is => other is.1

theorem lenientRange_some {text : String} {spec : RangeSpec} :
    lenientRange text = some spec ↔ ∃ parts, rangeParts text = some parts ∧
      parts.unit = "bytes=".toList ∧ readNumbers (tidy parts.first) (tidy parts.last) = some spec ∧
      spec.below (2 ^ 64) = true := by
  unfold lenientRange
  rw [Option.bind_eq_some_iff]
  refine exists_congr fun parts => and_congr_right fun _ => ?_
  rw [Option.ite_none_right_eq_some, Option.filter_eq_some_iff]

/-- The condition in terms of what is read. -/
theorem readsRange_iff (text : String) (total : Nat) : ReadsRange text total ↔
    (∀ spec, readRange text = some spec →
      lenientRange text = some spec ∨ ∃ start, firstPosition text = some start ∧ total ≤ start) ∧
    (readRange text = none →
      (∀ spec, lenientRange text = some spec → isSuffix spec = true) ∧
      ∀ start, firstPosition text = some start → start < total) := by
  constructor
  · intro reads
    refine ⟨fun spec read => ?_, fun read => ⟨fun spec taken => ?_, fun start position => ?_⟩⟩
    · obtain ⟨parts, named, read⟩ := Option.bind_eq_some_iff.mp read
      have numbers := (Option.filter_eq_some_iff.mp read).1
      obtain ⟨first, last⟩ := readNumbers_tidy numbers
      obtain ⟨unit, small | ⟨start, position, below, beyond⟩⟩ := (reads parts named).1 spec read
      · rw [← first, ← last] at numbers
        exact Or.inl (lenientRange_some.mpr ⟨parts, named, unit, numbers, small⟩)
      · rw [← first] at position
        exact Or.inr ⟨start, firstPosition_some.mpr ⟨parts, named, unit, position, below⟩, beyond⟩
    · obtain ⟨parts, named, unit, numbers, small⟩ := lenientRange_some.mp taken
      have none : readSpec parts.first parts.last = none := Option.bind_eq_none_iff.mp read parts named
      exact ((reads parts named).2 none unit).1 spec numbers small
    · obtain ⟨parts, named, unit, number, below⟩ := firstPosition_some.mp position
      have none : readSpec parts.first parts.last = none := Option.bind_eq_none_iff.mp read parts named
      exact ((reads parts named).2 none unit).2 start number below
  · rintro ⟨proper, improper⟩ parts named
    have whole : readRange text = readSpec parts.first parts.last := by
      rw [readRange, named, Option.bind_some]
    refine ⟨fun spec read => ?_, fun read unit => ?_⟩
    · have numbers := (Option.filter_eq_some_iff.mp read).1
      rcases proper spec (whole.trans read) with taken | ⟨start, position, beyond⟩
      · obtain ⟨other, same, unit, _, small⟩ := lenientRange_some.mp taken
        cases named.symm.trans same
        exact ⟨unit, Or.inl small⟩
      · obtain ⟨other, same, unit, number, below⟩ := firstPosition_some.mp position
        cases named.symm.trans same
        rw [(readNumbers_tidy numbers).1] at number
        exact ⟨unit, Or.inr ⟨start, number, below, beyond⟩⟩
    · obtain ⟨suffix, before⟩ := improper (whole.trans read)
      refine ⟨fun spec numbers small => ?_, fun start number below => ?_⟩
      · exact suffix spec (lenientRange_some.mpr ⟨parts, named, unit, numbers, small⟩)
      · exact before start (firstPosition_some.mpr ⟨parts, named, unit, number, below⟩)

/-- A range begins at the first position. -/
theorem firstPosition_range {text : String} {spec : RangeSpec} {start : Nat}
    (read : readRange text = some spec) (forward : isSuffix spec = false)
    (position : firstPosition text = some start) :
    spec = .fromOn start ∨ ∃ stop, spec = .closed start stop := by
  obtain ⟨parts, named, numbers⟩ := Option.bind_eq_some_iff.mp read
  have numbers := (Option.filter_eq_some_iff.mp numbers).1
  have plain := readNumbers_tidy numbers
  unfold firstPosition at position
  rw [headerParts_eq, named, Option.bind_some] at position
  split at position
  · rw [Option.bind_some, parseU64_trim, lenientNumber, plain.1] at position
    have isStart := (Option.filter_eq_some_iff.mp position).1
    unfold readNumbers at numbers
    split at numbers
    · obtain ⟨length, _, rfl⟩ := Option.map_eq_some_iff.mp numbers
      cases forward
    · rw [isStart, Option.bind_some] at numbers
      split at numbers
      · exact Or.inl (Option.some.inj numbers).symm
      · obtain ⟨stop, _, rfl⟩ := Option.map_eq_some_iff.mp numbers
        exact Or.inr ⟨stop, rfl⟩
  · cases position

theorem replyTo_status (content : List UInt8) (result : Option (Except Unit (Nat × Nat))) :
    (replyTo content result).status = 200 ↔ result = none := by
  cases result with
  | none => exact ⟨fun _ => rfl, fun _ => rfl⟩
  | some outcome =>
    refine ⟨fun status => ?_, nofun⟩
    cases outcome with
    | error reason => exact absurd status (by show (416 : Nat) ≠ 200; decide)
    | ok window => exact absurd status (by show (206 : Nat) ≠ 200; decide)

/-- A suffix has no first position. -/
theorem firstPosition_suffix {text : String} {spec : RangeSpec} (taken : lenientRange text = some spec)
    (suffix : isSuffix spec = true) : firstPosition text = none := by
  obtain ⟨parts, named, numbers⟩ := Option.bind_eq_some_iff.mp (lenientRange_eq text ▸ taken)
  have number := parseU64_trim parts.1.toList
  rw [String.ofList_toList] at number
  unfold firstPosition
  rw [named, Option.bind_some, number]
  rw [readNumbers_below] at numbers
  split at numbers
  · rename_i empty
    rw [lenientNumber, List.isEmpty_iff.mp empty]
    rfl
  · obtain ⟨start, _, rest⟩ := Option.bind_eq_some_iff.mp numbers
    split at rest
    · rw [← Option.some.inj rest] at suffix
      cases suffix
    · obtain ⟨stop, _, rfl⟩ := Option.map_eq_some_iff.mp rest
      cases suffix

/-- A first position that is not before the end is an error, whatever follows. -/
theorem resultAt_beyond {text : String} {total start : Nat} (position : firstPosition text = some start)
    (beyond : total ≤ start) : resultAt text total = some (.error ()) := by
  unfold resultAt
  rw [position, Option.bind_some, if_pos beyond]

theorem resultAt_none {text : String} {total : Nat}
    (before : ∀ start, firstPosition text = some start → start < total) :
    lenientRange text = none → resultAt text total = none := by
  intro unread
  unfold resultAt
  rw [unread, Option.map_none]
  cases position : firstPosition text with
  | none => rfl
  | some start =>
    have := before start position
    rw [Option.bind_some, if_neg (by omega)]

/-- A range that begins at the first position selects nothing if this is not before the end. -/
theorem selected_beyond {spec : RangeSpec} {start : Nat} {content : List UInt8}
    (shape : spec = .fromOn start ∨ ∃ stop, spec = .closed start stop)
    (beyond : content.length ≤ start) : spec.selected content = [] := by
  refine RangeSpec.selected_of_none ?_
  rcases shape with rfl | ⟨stop, rfl⟩
  · exact if_neg (by omega)
  · exact if_neg (by omega)

theorem getBlob_follows {text : String} (forward : ∀ length, readRange text ≠ some (.suffix length))
    (content : List UInt8) :
    Follows (readRange text) content (replyTo content (resultAt text content.length)) ↔
      ReadsRange text content.length := by
  have suffixless : ∀ spec, readRange text = some spec → isSuffix spec = false := by
    intro spec read
    cases spec with
    | suffix length => exact absurd read (forward length)
    | _ => rfl
  rw [readsRange_iff]
  constructor
  · intro follows
    have ignored := (follows_ignored follows).symm.trans (replyTo_status _ _)
    constructor
    · intro spec read
      have answered : resultAt text content.length ≠ none := fun none => by
        rw [ignored.mpr none] at read
        cases read
      cases position : firstPosition text with
      | none => exact absurd (by unfold resultAt; rw [position]; rfl) answered
      | some start =>
        by_cases beyond : content.length ≤ start
        · exact Or.inr ⟨start, rfl, beyond⟩
        · cases taken : lenientRange text with
          | some other => exact Or.inl (by rw [lenient_eq read taken])
          | none =>
            refine absurd (resultAt_none (fun other same => ?_) taken) answered
            rw [position] at same
            cases same
            omega
    · intro read
      have nothing := ignored.mp read
      have before : ∀ start, firstPosition text = some start → start < content.length := by
        intro start position
        refine Nat.lt_of_not_le fun beyond => ?_
        rw [resultAt_beyond position beyond] at nothing
        cases nothing
      refine ⟨fun spec taken => Bool.of_not_eq_false fun other => ?_, before⟩
      have same := replyTo_lenient taken other content
      rw [nothing] at same
      have status := congrArg RangeReply.status same
      rw [strictAnswer_result] at status
      split at status
      · exact absurd status (by show (200 : Nat) ≠ 206; decide)
      · exact absurd status (by show (200 : Nat) ≠ 416; decide)
  · rintro ⟨ranged, ignored⟩
    cases read : readRange text with
    | none =>
      obtain ⟨suffixes, before⟩ := ignored read
      have nothing : resultAt text content.length = none := by
        cases taken : lenientRange text with
        | none => exact resultAt_none before taken
        | some spec =>
          cases position : firstPosition text with
          | none =>
            unfold resultAt
            rw [position]
            rfl
          | some start =>
            rw [firstPosition_suffix taken (suffixes spec taken)] at position
            cases position
      rw [nothing]
      exact ⟨fun _ => ⟨rfl, rfl, rfl⟩, fun other same =>
        (Option.some_ne_none other same.symm).elim⟩
    | some spec =>
      have order := readRange_ordered read
      rcases ranged spec read with taken | ⟨start, position, beyond⟩
      · rw [replyTo_lenient taken (suffixless spec read), strictAnswer, if_pos order]
        exact follows_answer (fun other same => by cases same; exact order) content
      · have empty := selected_beyond (firstPosition_range read (suffixless spec read) position) beyond
        rw [resultAt_beyond position beyond]
        refine ⟨fun unread => (Option.some_ne_none spec unread).elim, fun other same => ?_⟩
        cases same
        exact ⟨fun _ => rfl, fun full => absurd empty full⟩

/-! ### The three readers -/

/-- The two readers of Cloud Storage and Azure, and the one of S3. -/
def Agree (text : String) (size : Nat) : Prop :=
  ∃ parsed, Gcs.parseRange (some text) size = some parsed ∧ parseRange text size = some parsed ∧
    S3.parseRange text size = parsed.map Except.toOption

theorem toOption_resultOf {spec : RangeSpec} (order : spec.ordered = true) (size : Nat) :
    (resultOf size spec).toOption = spec.clamp size := by
  unfold Gcs.resultOf
  rw [if_pos order]
  cases spec.clamp size with
  | none => rfl
  | some range => rfl

/-- Where all of them follow the header, they agree. -/
theorem agree_of_written {text : String} {size : Nat} (written : AsWritten text)
    (forward : ∀ length, readRange text ≠ some (.suffix length)) (straight : ¬ Reversed text)
    (ranged : ReadsRange text size) : Agree text size := by
  have ordered : ∀ spec, lenientRange text = some spec → spec.ordered = true := fun spec taken =>
    Bool.of_not_eq_false fun unordered => straight ⟨spec, taken, unordered⟩
  have same := (asWritten_iff text).mp written
  refine ⟨_, Gcs.parseRange_eq text size, ?_, ?_⟩
  · rw [parseRange_eq]
    cases taken : lenientRange text with
    | none =>
      rw [taken] at same
      rw [resultAt_none (((readsRange_iff text size).mp ranged).2 same).2 taken]
      rfl
    | some spec =>
      have named : readRange text = some spec := by
        rw [same, taken, Option.filter_some, if_pos (ordered spec taken)]
      have positions : isSuffix spec = false := by
        cases spec with
        | suffix length => exact absurd named (forward length)
        | _ => rfl
      rw [resultAt_lenient taken positions]
      rfl
  · rw [S3.parseRange_eq]
    cases taken : lenientRange text with
    | none => rfl
    | some spec =>
      rw [Option.filter_some, if_pos (ordered spec taken), Option.map_some, Option.map_some,
        Option.map_some, toOption_resultOf (ordered spec taken)]

/-- **Range downloads follow RFC 7233** from Cloud Storage exactly where the header is read as it is
written and not reversed, and from Azure, whose ranges are no suffixes, exactly where it reads what the
header asks; there the two agree with each other and with S3. Nothing underflows or leaves the
content. -/
theorem downloads_follow (object : Gcs.GcsObject) (blob : AzureBlob) (text : String) :
    (∃ reply, Gcs.mediaResponse object (some text) = some reply ∧
      (Follows (readRange text) object.content reply ↔ AsWritten text ∧ ¬ Reversed text)) ∧
    (∃ reply, getBlob blob none (some text) = some reply ∧
      getBlob blob (some text) none = some reply ∧
      ((∀ length, readRange text ≠ some (.suffix length)) →
        (Follows (readRange text) blob.content reply ↔ ReadsRange text blob.content.length))) ∧
    ∀ size, AsWritten text → ¬ Reversed text → ReadsRange text size →
      (∀ length, readRange text ≠ some (.suffix length)) → Agree text size := by
  refine ⟨⟨_, Gcs.mediaResponse_eq object text, follows_strict_iff text _⟩,
    ⟨_, getBlob_eq blob none (some text) rfl, getBlob_eq blob (some text) none rfl,
      fun forward => getBlob_follows forward _⟩, fun size written straight ranged forward =>
    agree_of_written written forward straight ranged⟩

def helloObject : Gcs.GcsObject where
  bucket := "b"
  name := "k"
  content := utf8 "hello"
  contentType := "text/plain"
  size := 5
  etag := "e"
  createdAt := 0
  props := .null

def helloBlob : AzureBlob where
  container := "b"
  account := "a"
  name := "k"
  content := utf8 "hello"
  contentType := "text/plain"
  size := 5
  etag := "e"
  createdAt := "0"

/-- A range that ends before it begins is answered with an error. -/
theorem reversed_range_refused :
    (¬ ∀ (object : Gcs.GcsObject) (text : String), ∃ reply,
      Gcs.mediaResponse object (some text) = some reply ∧
        Follows (readRange text) object.content reply) ∧
    ¬ ∀ (blob : AzureBlob) (text : String), (∀ length, readRange text ≠ some (.suffix length)) →
      ∃ reply, getBlob blob none (some text) = some reply ∧
        Follows (readRange text) blob.content reply := by
  have none : readRange "bytes=3-1" = none := by decide
  have fails : ∀ {content : List UInt8} {reply : RangeReply UInt8}, reply.status = 416 →
      ¬ Follows (readRange "bytes=3-1") content reply := by
    intro content reply status follows
    rw [(follows_ignored follows).mpr none] at status
    exact absurd status (by decide)
  constructor
  · intro all
    obtain ⟨reply, answered, follows⟩ := all helloObject "bytes=3-1"
    refine fails ?_ follows
    have status : (Gcs.mediaResponse helloObject (some "bytes=3-1")).map RangeReply.status =
        some 416 := by decide
    rw [answered] at status
    exact Option.some.inj status
  · intro all
    obtain ⟨reply, answered, follows⟩ := all helloBlob "bytes=3-1" (by simp [none])
    refine fails ?_ follows
    have status : (getBlob helloBlob Option.none (some "bytes=3-1")).map RangeReply.status =
        some 416 := by decide
    rw [answered] at status
    exact Option.some.inj status

theorem downloads_follow_hello :
    (∃ reply, Gcs.mediaResponse helloObject (some "bytes=1-9") = some reply ∧
      Follows (some (.closed 1 9)) (utf8 "hello") reply) ∧
    (∃ reply, getBlob helloBlob none (some "bytes=1-9") = some reply ∧
      Follows (some (.closed 1 9)) (utf8 "hello") reply) ∧ Agree "bytes=1-9" 5 := by
  have read : readRange "bytes=1-9" = some (.closed 1 9) := by decide
  have taken : lenientRange "bytes=1-9" = some (.closed 1 9) := by decide
  have written : AsWritten "bytes=1-9" := by
    rw [asWritten_iff, read, taken]
    rfl
  have straight : ¬ Reversed "bytes=1-9" := by
    rintro ⟨spec, same, unordered⟩
    rw [taken] at same
    cases same
    cases unordered
  have forward : ∀ length, readRange "bytes=1-9" ≠ some (.suffix length) := by simp [read]
  have ranged : ReadsRange "bytes=1-9" 5 := by
    rw [readsRange_iff]
    refine ⟨fun spec same => Or.inl ?_, fun none => ?_⟩
    · rw [taken, ← same, read]
    · rw [read] at none
      cases none
  obtain ⟨⟨first, answered, follows⟩, ⟨second, served, _, followsBlob⟩, agree⟩ :=
    downloads_follow helloObject helloBlob "bytes=1-9"
  rw [read] at follows followsBlob
  exact ⟨⟨first, answered, follows.mpr ⟨written, straight⟩⟩,
    ⟨second, served, (followsBlob (fun _ => nofun)).mpr ranged⟩,
    agree 5 written straight ranged forward⟩

end CloudTwin.Azure
