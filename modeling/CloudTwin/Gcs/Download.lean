/-
**Range downloads from Cloud Storage** (`gcp/storage/handlers.rs`).

* `parseRange`, `mediaResponse` — the range of a download and its answer, every subtraction and slice
  checked.
* `parseRange_eq` — the header is read leniently; a reversed range is an error.
* `mediaResponse_eq` — nothing underflows or leaves the content.
-/

import CloudTwin.Gcs.Service
import CloudTwin.Lib.ByteRange

namespace CloudTwin.Gcs

open Lib Lib.Text

/-- What `parse_range` makes of the texts before and after the dash. -/
def rangeOf (first last : String) (len : Nat) : Option (Option (Except Unit (Nat × Nat))) :=
  if (trim first).isEmpty then
    match parseU64 (trim last) with
    | none => some none
    | some number =>
      if number = 0 ∨ len = 0 then some (some (.error ()))
      else (checkedSub len 1).map fun stop => some (.ok (len - number, stop))
  else
    match parseU64 (trim first) with
    | none => some none
    | some start =>
      let stop :=
        if (trim last).isEmpty then some (len - 1)
        else (parseU64 (trim last)).map fun stop => min stop (len - 1)
      match stop with
      | none => some none
      | some stop => some (some (if len ≤ start ∨ stop < start then .error () else .ok (start, stop)))

/-- Parse a single `Range: bytes=...` spec into an inclusive range. `none` = header absent/unsupported
(serve everything), an error = unsatisfiable. -/
def parseRange (text : Option String) (len : Nat) : Option (Option (Except Unit (Nat × Nat))) :=
  match text with
  | none => some none
  | some text =>
    let spec := trim text
    if startsWith spec "bytes=" = false then some none
    else
      let spec := String.ofList (spec.toList.drop 6)
      if ',' ∈ spec.toList then some none
      else
        match splitOnce '-' spec with
        | none => some none
        | some (first, last) => rangeOf first last len

/-- `header_str`. -/
def headerStr (text : Option String) : Option String :=
  text.filter fun text => !text.isEmpty

/-- The `alt=media` response, as far as it depends on the range. -/
def mediaResponse (object : GcsObject) (range : Option String) : Option (RangeReply UInt8) := do
  match ← parseRange (headerStr range) object.content.length with
  | none => return { status := 200, contentRange := none, body := object.content }
  | some (.ok (start, stop)) =>
    let body ← sliceInclusive object.content start stop
    return { status := 206, contentRange := some (start, stop, object.content.length), body }
  | some (.error _) => return { status := 416, contentRange := none, body := [] }

/-- A range that ends before it begins is unsatisfiable. -/
def resultOf (len : Nat) (spec : RangeSpec) : Except Unit (Nat × Nat) :=
  if spec.ordered then
    match spec.clamp len with
    | some range => .ok range
    | none => .error ()
  else .error ()

theorem resultOf_from (start len : Nat) :
    resultOf len (.fromOn start) =
      if len ≤ start ∨ len - 1 < start then .error () else .ok (start, len - 1) := by
  show (match if start < len then some (start, len - 1) else none with
    | some range => Except.ok range
    | none => .error ()) = _
  by_cases inside : start < len
  · rw [if_pos inside, if_neg (by omega)]
  · rw [if_neg inside, if_pos (by omega)]

theorem resultOf_closed (start stop len : Nat) :
    resultOf len (.closed start stop) =
      if len ≤ start ∨ min stop (len - 1) < start then .error ()
      else .ok (start, min stop (len - 1)) := by
  show (if decide (start ≤ stop) = true then
      match if start < len then some (start, min stop (len - 1)) else none with
      | some range => Except.ok range
      | none => .error ()
    else .error ()) = _
  by_cases order : start ≤ stop
  · rw [if_pos (decide_eq_true order)]
    by_cases inside : start < len
    · rw [if_pos inside, if_neg (by omega)]
    · rw [if_neg inside, if_pos (by omega)]
  · rw [if_neg fun wrong => order (of_decide_eq_true wrong), if_pos (by omega)]

theorem rangeOf_eq (first last : List Char) (len : Nat) :
    rangeOf (String.ofList first) (String.ofList last) len =
      some (((readNumbers (tidy first) (tidy last)).filter (RangeSpec.below (2 ^ 64))).map
        (resultOf len)) := by
  unfold rangeOf
  rw [readNumbers_below, trim_isEmpty, trim_isEmpty, parseU64_trim, parseU64_trim]
  split
  · cases lenientNumber last with
    | none => rfl
    | some number =>
      show (if number = 0 ∨ len = 0 then _ else _) =
        some (some (match if 0 < number ∧ 0 < len then some (len - number, len - 1) else none with
          | some range => Except.ok range
          | none => .error ()))
      by_cases none : number = 0 ∨ len = 0
      · rw [if_pos none, if_neg (by omega)]
      · rw [if_neg none, if_pos (by omega), checkedSub_one (by omega)]
        rfl
  · cases lenientNumber first with
    | none => rfl
    | some start =>
      rw [Option.bind_some]
      cases (tidy last).isEmpty with
      | true =>
        rw [if_pos rfl, if_pos rfl, Option.map_some, resultOf_from]
      | false =>
        rw [if_neg Bool.false_ne_true, if_neg Bool.false_ne_true]
        cases lenientNumber last with
        | none => rfl
        | some stop =>
          rw [Option.map_some, Option.map_some, Option.map_some, resultOf_closed]

theorem parseRange_walk (text : String) (len : Nat) :
    parseRange (some text) len =
      if startsWith (trim text) "bytes=" = false then some none
      else if ',' ∈ (String.ofList ((trim text).toList.drop 6)).toList then some none
      else
        match splitOnce '-' (String.ofList ((trim text).toList.drop 6)) with
        | none => some none
        | some (first, last) => rangeOf first last len :=
  rfl

/-- **The header is read leniently**; a reversed range is an error. -/
theorem parseRange_eq (text : String) (len : Nat) :
    parseRange (some text) len = some ((lenientRange text).map (resultOf len)) := by
  rw [parseRange_walk, String.toList_ofList]
  by_cases comma : ',' ∈ (trim text).toList.drop 6
  · rw [if_pos comma, lenientRange_comma comma]
    exact ite_self _
  · rw [if_neg comma, lenientRange_eq]
    unfold headerParts
    cases startsWith (trim text) "bytes=" with
    | false => rfl
    | true =>
      rw [if_neg Bool.true_eq_false.mp, if_pos rfl]
      cases splitOnce '-' (String.ofList ((trim text).toList.drop 6)) with
      | none => rfl
      | some parts =>
        have whole := rangeOf_eq parts.1.toList parts.2.toList len
        rw [String.ofList_toList, String.ofList_toList] at whole
        rw [Option.bind_some]
        exact whole

/-- The reply to a result. -/
theorem strictAnswer_result {content : List UInt8} {spec : RangeSpec} :
    strictAnswer content (some spec) =
      match resultOf content.length spec with
      | .ok (start, stop) =>
        { status := 206, contentRange := some (start, stop, content.length)
          body := (content.drop start).take (stop - start + 1) }
      | .error _ => { status := 416, contentRange := none, body := [] } := by
  show (if spec.ordered = true then answer content (some spec) else _) = _
  unfold resultOf
  by_cases order : spec.ordered = true
  · rw [if_pos order, if_pos order]
    cases clamped : spec.clamp content.length with
    | none => rw [answer_unsatisfiable clamped]
    | some range => rw [answer_range clamped]
  · rw [if_neg order, if_neg order]

theorem resultOf_bounds {len start stop : Nat} {spec : RangeSpec}
    (result : resultOf len spec = .ok (start, stop)) : start ≤ stop ∧ stop < len := by
  unfold resultOf at result
  split at result
  · rename_i order
    cases clamped : spec.clamp len with
    | none =>
      rw [clamped] at result
      cases result
    | some range =>
      rw [clamped] at result
      cases result
      exact RangeSpec.clamp_bounds order clamped
  · cases result

/-- **Nothing underflows or leaves the content.** -/
theorem mediaResponse_eq (object : GcsObject) (text : String) :
    mediaResponse object (some text) = some (strictAnswer object.content (lenientRange text)) := by
  by_cases empty : text.isEmpty = true
  · have none : lenientRange text = none := by
      rw [String.isEmpty_iff.mp empty]
      decide
    have dropped : headerStr (some text) = Option.none := by
      show (if (!text.isEmpty) = true then _ else _) = _
      rw [empty]
      rfl
    unfold mediaResponse
    rw [none, dropped]
    rfl
  · have kept : headerStr (some text) = some text := by
      show (if (!text.isEmpty) = true then _ else _) = _
      rw [Bool.eq_false_iff.mpr empty]
      rfl
    unfold mediaResponse
    rw [kept, parseRange_eq]
    cases lenientRange text with
    | none => rfl
    | some spec =>
      rw [strictAnswer_result, Option.map_some]
      cases result : resultOf object.content.length spec with
      | error reason => rfl
      | ok range =>
        obtain ⟨start, stop⟩ := range
        have bounds := resultOf_bounds result
        have slice : sliceInclusive object.content start stop =
            some ((object.content.drop start).take (stop - start + 1)) := by
          rw [sliceInclusive, if_pos (by omega), show stop + 1 - start = stop - start + 1 by omega]
        show ((sliceInclusive object.content start stop).bind fun body => _) = _
        rw [slice]
        rfl

end CloudTwin.Gcs
