/-
**Ranges of bytes of an object** (`aws/s3/object.rs`, `parse_range` and `get_object`).

* `rangeOf`, `parseRange_eq` — the header is read leniently, and its range is cut to the object.
* `checkedRange_eq`, `parseRange_bounds` — no subtraction underflows.
* `Served`, `getObject_answer` — a GetObject answers what the lenient reading asks for.
* `getObject_follows` — it follows the header exactly where that is read as it is written.
-/

import CloudTwin.Lib.ByteRange
import CloudTwin.S3.PartNumber

namespace CloudTwin.S3

open Lib Lib.Text

set_option linter.unusedSectionVars false

/-! ### The range -/

/-- What `parse_range` makes of the texts before and after the dash. -/
def rangeOf (first last : String) (size : Nat) : Option (Option (Nat × Nat)) := do
  if (trim first).isEmpty then
    let number ← parseU64 (trim last)
    if number = 0 ∨ size = 0 then some none else some (some (size - number, size - 1))
  else
    let start ← parseU64 (trim first)
    let stop ← if (trim last).isEmpty then some none else (parseU64 (trim last)).map some
    if stop.any fun stop => stop < start then none
    else if size ≤ start then some none
    else some (some (start, stop.elim (size - 1) fun stop => min stop (size - 1)))

theorem rangeOf_eq (first last : List Char) (size : Nat) :
    rangeOf (String.ofList first) (String.ofList last) size =
      (((readNumbers (tidy first) (tidy last)).filter (RangeSpec.below (2 ^ 64))).filter
        RangeSpec.ordered).map (RangeSpec.clamp size) := by
  unfold rangeOf
  rw [readNumbers_below, trim_isEmpty, trim_isEmpty, parseU64_trim, parseU64_trim]
  split
  · cases lenientNumber last with
    | none => rfl
    | some number =>
      show (if number = 0 ∨ size = 0 then some none else _) =
        some (if 0 < number ∧ 0 < size then _ else _)
      split <;> split <;> first | rfl | omega
  · cases lenientNumber first with
    | none => rfl
    | some start =>
      rw [Option.bind_some]
      split
      · show (if size ≤ start then some none else _) = some (if start < size then _ else _)
        split <;> split <;> first | rfl | omega
      · cases lenientNumber last with
        | none => rfl
        | some stop =>
          show (if decide (stop < start) = true then none else
            if size ≤ start then some none else some (some (start, min stop (size - 1)))) =
              Option.map _ (Option.filter RangeSpec.ordered (some (.closed start stop)))
          rw [Option.filter_some]
          show _ = Option.map _ (if decide (start ≤ stop) = true then _ else _)
          by_cases order : start ≤ stop
          · rw [if_neg (by simpa using order), if_pos (decide_eq_true order)]
            show _ = some (if start < size then _ else _)
            split <;> split <;> first | rfl | omega
          · rw [if_pos (by simpa using order), if_neg (by simpa using order)]
            rfl

/-- The comma is looked for before the dash. -/
theorem parseRange_walk (text : String) (size : Nat) :
    parseRange text size =
      if startsWith (trim text) "bytes=" = false then none
      else if ',' ∈ (String.ofList ((trim text).toList.drop 6)).toList then none
      else (splitOnce '-' (String.ofList ((trim text).toList.drop 6))).bind fun parts =>
        rangeOf parts.1 parts.2 size :=
  rfl

/-- **The header is read leniently**, and its range is cut to the object. -/
theorem parseRange_eq (text : String) (size : Nat) :
    parseRange text size =
      ((lenientRange text).filter RangeSpec.ordered).map (RangeSpec.clamp size) := by
  rw [parseRange_walk, String.toList_ofList]
  by_cases comma : ',' ∈ (trim text).toList.drop 6
  · rw [if_pos comma, lenientRange_comma comma]
    exact ite_self _
  · rw [if_neg comma, lenientRange_eq]
    unfold headerParts
    cases startsWith (trim text) "bytes=" with
    | false => rfl
    | true =>
      rw [if_neg Bool.true_eq_false.mp, if_pos rfl]
      cases splitOnce '-' (String.ofList ((trim text).toList.drop 6)) with
      | none => rfl
      | some parts =>
        have whole := rangeOf_eq parts.1.toList parts.2.toList size
        rw [String.ofList_toList, String.ofList_toList] at whole
        rw [Option.bind_some, Option.bind_some]
        exact whole

/-- **The range lies in the object.** -/
theorem parseRange_bounds {text : String} {size first last : Nat}
    (parsed : parseRange text size = some (some (first, last))) : first ≤ last ∧ last < size := by
  rw [parseRange_eq] at parsed
  obtain ⟨spec, taken, clamped⟩ := Option.map_eq_some_iff.mp parsed
  exact RangeSpec.clamp_bounds (Option.filter_eq_some_iff.mp taken).2 clamped

/-- `parse_range` with every subtraction checked. -/
def checkedRange (text : String) (size : Nat) : Option (Option (Option (Nat × Nat))) :=
  let spec := trim text
  if startsWith spec "bytes=" = false then some none
  else
    let spec := String.ofList (spec.toList.drop 6)
    if ',' ∈ spec.toList then some none
    else
      match splitOnce '-' spec with
      | none => some none
      | some (first, last) =>
        if (trim first).isEmpty then
          match parseU64 (trim last) with
          | none => some none
          | some number =>
            if number = 0 ∨ size = 0 then some (some none)
            else (checkedSub size 1).map fun stop => some (some (size - number, stop))
        else
          match parseU64 (trim first), (trim last).isEmpty, parseU64 (trim last) with
          | none, _, _ => some none
          | some _, false, none => some none
          | some start, true, _ =>
            if size ≤ start then some (some none)
            else (checkedSub size 1).map fun stop => some (some (start, stop))
          | some start, false, some stop =>
            if stop < start then some none
            else if size ≤ start then some (some none)
            else (checkedSub size 1).map fun last => some (some (start, min stop last))

theorem checkedRange_eq (text : String) (size : Nat) :
    checkedRange text size = some (parseRange text size) := by
  rw [parseRange_walk]
  unfold checkedRange
  dsimp only
  split
  · rfl
  split
  · rfl
  cases splitOnce '-' (String.ofList ((trim text).toList.drop 6)) with
  | none => rfl
  | some parts =>
    rw [Option.bind_some]
    unfold rangeOf
    dsimp only
    cases (trim parts.1).isEmpty with
    | true =>
      rw [if_pos rfl, if_pos rfl]
      cases parseU64 (trim parts.2) with
      | none => rfl
      | some number =>
        show (if number = 0 ∨ size = 0 then _ else _) = some (if number = 0 ∨ size = 0 then _ else _)
        split
        · rfl
        · rw [checkedSub_one (by omega)]
          rfl
    | false =>
      rw [if_neg Bool.false_ne_true, if_neg Bool.false_ne_true]
      cases parseU64 (trim parts.1) with
      | none => rfl
      | some start =>
        cases (trim parts.2).isEmpty with
        | true =>
          show (if size ≤ start then _ else _) = some (if size ≤ start then _ else _)
          split
          · rfl
          · rw [checkedSub_one (by omega)]
            rfl
        | false =>
          cases parseU64 (trim parts.2) with
          | none => rfl
          | some stop =>
            show (if stop < start then _ else if size ≤ start then _ else _) =
              some (if decide (stop < start) = true then none else if size ≤ start then _ else _)
            by_cases reversed : stop < start
            · rw [if_pos reversed, if_pos (decide_eq_true reversed)]
            · rw [if_neg reversed, if_neg fun wrong => reversed (of_decide_eq_true wrong)]
              split
              · rfl
              · rw [checkedSub_one (by omega)]
                rfl

/-! ### The answer -/

/-- `S3Error::status`, of the errors that a range meets. -/
def S3Error.status (error : S3Error) : Nat :=
  if error.code = "InvalidRange" then 416
  else if error.code = "InternalError" then 500
  else if error.code = "NoSuchBucket" ∨ error.code = "NoSuchKey" ∨ error.code = "NoSuchVersion" then 404
  else 400

/-- The answer as it goes over the wire, as far as it depends on the range. -/
def rangeReply : S3Result GetReply → RangeReply UInt8
  | .ok reply => { status := reply.status, contentRange := reply.contentRange, body := reply.body }
  | .error error => { status := error.status, contentRange := none, body := [] }

/-- **The object that a request reads**: it has this content, and the size that is recorded is its
length. -/
structure Served (store : Store) (bucket key : String) (versionId : Option String)
    (content : List UInt8) (info : ObjectInfo) : Prop where
  resolved : resolveVersion store bucket key versionId = .ok info
  read : readContent store info none = some content
  size : info.size = content.length

theorem readContent_range {store : Store} {info : ObjectInfo} {content : List UInt8}
    (read : readContent store info none = some content) (first last : Nat) :
    readContent store info (some (first, last - first + 1)) =
      some ((content.drop first).take (last - first + 1)) := by
  unfold readContent at read ⊢
  obtain ⟨row, found, same⟩ := Option.map_eq_some_iff.mp read
  rw [found, Option.map_some, ← show row.content = content from same]
  rfl

/-- **What was written is read.** -/
theorem served_written [External] [S3External] {store after : Store} {bucket key : String}
    {obj : NewObject} {now : Int} {result : WriteResult}
    (done : writeObjectTx store bucket key obj now = .ok (result, after)) :
    ∃ info, Served after bucket key none obj.content info := by
  obtain ⟨row, others, objects, away, own, keyed, content, size, _, _, _, _, _⟩ :=
    writeObjectTx_written done
  have current : after.objects.find? (fun row => row.isFor bucket key) = some row := by
    rw [objects]
    exact find_written away (fun _ found => found) (isFor_iff.mpr ⟨own, keyed⟩)
  have stored : bucketExists after bucket = true := by
    obtain ⟨versioning, configured, _⟩ := bind_ok done
    obtain ⟨_, required, _⟩ := bind_ok configured
    have before := rejectIf_ok.mp required
    unfold bucketExists
    rw [(moves_writeObject done).2.buckets]
    exact Bool.of_not_eq_false before
  have found : currentInfo after bucket key = some { infoFromRow row false with isLatest := true } := by
    unfold currentInfo
    rw [current]
    rfl
  refine ⟨{ infoFromRow row false with isLatest := true }, ?_, ?_, size⟩
  · refine ok_bind (rejectIf_pass (by simp [stored])) ?_
    simp only [found]
  · unfold readContent
    have read : after.objects.find? (fun row' =>
        row'.isRead { infoFromRow row false with isLatest := true }) = some row := by
      rw [objects]
      refine find_written away (fun old same => ?_) (by
        simp [ObjectRow.isRead, ObjectRow.isVersion, ObjectRow.isFor, infoFromRow])
      simp only [ObjectRow.isRead, ObjectRow.isVersion, ObjectRow.isFor, Bool.and_eq_true,
        beq_iff_eq] at same
      exact isFor_iff.mpr ⟨same.1.1.1.trans own, same.1.1.2.trans keyed⟩
    rw [read, ← content]
    rfl

section Served

variable {store : Store} {bucket key : String} {versionId : Option String} {content : List UInt8}
  {info : ObjectInfo} (served : Served store bucket key versionId content info) {text : String}
  (attempts : Nat)

include served

theorem getObject_whole (parsed : parseRange text info.size = none) :
    getObject store bucket key versionId { partNumber := none, range := some text } (attempts + 1) =
      .ok { status := 200, contentRange := none, partsCount := none, length := info.size,
            body := content } := by
  have selected : selectRange info { partNumber := none, range := some text } =
      .ok { range := none, partsCount := none } := by
    simp only [selectRange, parsed]
  rw [getObject_once attempts served.resolved selected served.read]
  rfl

theorem getObject_unsatisfiable (parsed : parseRange text info.size = some none) :
    ∃ error, error.code = "InvalidRange" ∧
      getObject store bucket key versionId { partNumber := none, range := some text }
        (attempts + 1) = .error error := by
  have refused : ∃ error, error.code = "InvalidRange" ∧
      selectRange info { partNumber := none, range := some text } = .error error := by
    simp only [selectRange, parsed]
    exact ⟨_, rfl, rfl⟩
  obtain ⟨error, code, refused⟩ := refused
  refine ⟨error, code, ?_⟩
  unfold getObject
  refine ok_bind served.resolved ?_
  show (selectRange info _ >>= _) = _
  rw [refused]
  rfl

theorem getObject_range {first last : Nat}
    (parsed : parseRange text info.size = some (some (first, last))) :
    getObject store bucket key versionId { partNumber := none, range := some text } (attempts + 1) =
      .ok { status := 206, contentRange := some (first, last, info.size), partsCount := none,
            length := last - first + 1, body := (content.drop first).take (last - first + 1) } := by
  have selected : selectRange info { partNumber := none, range := some text } =
      .ok { range := some (first, last), partsCount := none } := by
    simp only [selectRange, parsed]
  rw [getObject_once attempts served.resolved selected (readContent_range served.read first last)]
  rfl

/-- **A GetObject answers what the lenient reading of the header asks for.** -/
theorem getObject_answer :
    rangeReply (getObject store bucket key versionId { partNumber := none, range := some text }
      (attempts + 1)) = answer content ((lenientRange text).filter RangeSpec.ordered) := by
  have parsed := parseRange_eq text info.size
  cases taken : (lenientRange text).filter RangeSpec.ordered with
  | none =>
    rw [taken, Option.map_none] at parsed
    rw [getObject_whole served attempts parsed]
    rfl
  | some spec =>
    rw [taken, Option.map_some] at parsed
    cases clamped : spec.clamp info.size with
    | none =>
      rw [clamped] at parsed
      rw [served.size] at clamped
      obtain ⟨error, code, failed⟩ := getObject_unsatisfiable served attempts parsed
      rw [answer_unsatisfiable clamped, failed]
      show ({ status := error.status, contentRange := none, body := [] } : RangeReply UInt8) = _
      rw [S3Error.status, if_pos code]
    | some range =>
      obtain ⟨first, last⟩ := range
      rw [clamped] at parsed
      rw [served.size] at clamped
      rw [answer_range clamped, getObject_range served attempts parsed, ← served.size]
      rfl

/-- The length that is announced is that of the body. -/
theorem getObject_length {reply : GetReply}
    (done : getObject store bucket key versionId { partNumber := none, range := some text }
      (attempts + 1) = .ok reply) : reply.length = reply.body.length := by
  cases parsed : parseRange text info.size with
  | none =>
    rw [getObject_whole served attempts parsed] at done
    rw [← Except.ok.inj done]
    exact served.size
  | some range =>
    cases range with
    | none =>
      obtain ⟨error, _, failed⟩ := getObject_unsatisfiable served attempts parsed
      rw [failed] at done
      cases done
    | some range =>
      obtain ⟨first, last⟩ := range
      rw [getObject_range served attempts parsed] at done
      have bounds := parseRange_bounds parsed
      have size := served.size
      rw [← Except.ok.inj done]
      show last - first + 1 = ((content.drop first).take (last - first + 1)).length
      rw [List.length_take, List.length_drop]
      omega

end Served

/-- What a GetObject with a `Range` header has to answer. -/
def FollowsRange (content : List UInt8) (text : String) (result : S3Result GetReply) : Prop :=
  Follows (readRange text) content (rangeReply result) ∧
    ∀ reply, result = .ok reply → reply.length = reply.body.length

/-- **Ranges follow RFC 7233** exactly where the header is read as it is written; what is computed on
the way neither underflows nor leaves the object. -/
theorem getObject_follows {store : Store} {bucket key : String} {versionId : Option String}
    {content : List UInt8} {info : ObjectInfo}
    (served : Served store bucket key versionId content info) (text : String) (attempts : Nat) :
    (FollowsRange content text (getObject store bucket key versionId
        { partNumber := none, range := some text } (attempts + 1)) ↔ AsWritten text) ∧
      checkedRange text info.size = some (parseRange text info.size) ∧
      ∀ first last, parseRange text info.size = some (some (first, last)) →
        first ≤ last ∧ last < info.size := by
  refine ⟨?_, checkedRange_eq text _, fun first last => parseRange_bounds⟩
  unfold FollowsRange
  rw [getObject_answer served attempts, follows_iff]
  exact and_iff_left fun reply done => getObject_length served attempts done

/-! ### Headers that are not read as they are written -/

/-- A store with one object. -/
def oneObject : Store :=
  { Store.empty with
    buckets := ["b"]
    objects := [{ bucket := "b", key := "k", versionId := "null", seq := 1, content := utf8 "hello"
                  contentType := "text/plain", size := 5, etag := "e", createdAt := 0
                  objMeta := ObjMeta.default, tags := [] }] }

def helloInfo : ObjectInfo :=
  { bucket := "b", key := "k", versionId := "null", seq := 1, isDeleteMarker := false
    contentType := "text/plain", size := 5, etag := "e", createdAt := 0
    objMeta := ObjMeta.default, tags := [], isLatest := true }

theorem oneObject_served : Served oneObject "b" "k" none (utf8 "hello") helloInfo :=
  ⟨by rfl, by rfl, by decide⟩

/-- The last position is beyond the numbers of the reader: the whole object is answered. -/
theorem getObject_large_last : ¬ ∀ (store : Store) (bucket key : String) (versionId : Option String)
    (content : List UInt8) (info : ObjectInfo), Served store bucket key versionId content info →
      ∀ text, FollowsRange content text
        (getObject store bucket key versionId { partNumber := none, range := some text } 3) := by
  intro all
  have follows := (all oneObject "b" "k" none _ helloInfo oneObject_served
    "bytes=1-18446744073709551616").1
  have whole : (rangeReply (getObject oneObject "b" "k" none
      { partNumber := none, range := some "bytes=1-18446744073709551616" } 3)).status = 200 := by
    decide
  have named : readRange "bytes=1-18446744073709551616" = some (.closed 1 (2 ^ 64)) := by
    decide
  rw [follows_ignored follows, named] at whole
  cases whole

theorem getObject_follows_hello :
    (FollowsRange (utf8 "hello") "bytes=1-3" (getObject oneObject "b" "k" none
        { partNumber := none, range := some "bytes=1-3" } 3) ↔ AsWritten "bytes=1-3") ∧
      checkedRange "bytes=1-3" 5 = some (parseRange "bytes=1-3" 5) ∧
      ∀ first last, parseRange "bytes=1-3" 5 = some (some (first, last)) →
        first ≤ last ∧ last < 5 :=
  getObject_follows oneObject_served "bytes=1-3" 2

end CloudTwin.S3
