/-
**Reading an object part by part** (`aws/s3/object.rs`, `get_object`).

A part of an object is read as a range of bytes: the lengths of the parts before it give where it
starts. A part without bytes has no range, and is read as the whole object.

* `selectRange` — the range that a request asks for, by part number or by its `Range` header.
* `readContent`, `getObject` — what is read.
* `part_read` — what is read for a part number of an object that was assembled from parts.
* `parts_partition` — the parts partition the object exactly when none of them is empty, or all are.
-/

import CloudTwin.S3.Multipart
import CloudTwin.Lib.Utf8
import Mathlib

namespace CloudTwin.S3

open Lib Lib.Text

set_option linter.unusedSectionVars false

/-! ### Ranges -/

/-- Parse a single `bytes=` range. None = ignore; Some(None) = unsatisfiable. -/
def parseRange (text : String) (size : Nat) : Option (Option (Nat × Nat)) := do
  let spec := trim text
  if startsWith spec "bytes=" = false then none
  else
    let spec := String.ofList (spec.toList.drop 6)
    if ',' ∈ spec.toList then none
    else
      let (first, last) ← splitOnce '-' spec
      if (trim first).isEmpty then
        let number ← parseU64 (trim last)
        if number = 0 ∨ size = 0 then some none else some (some (size - number, size - 1))
      else
        let start ← parseU64 (trim first)
        let stop ← if (trim last).isEmpty then some none else (parseU64 (trim last)).map some
        if stop.any fun stop => stop < start then none
        else if size ≤ start then some none
        else some (some (start, stop.elim (size - 1) fun stop => min stop (size - 1)))

/-- What a GetObject asks for, besides the version. -/
structure GetRequest where
  /-- The query parameter `partNumber`. -/
  partNumber : Option String
  /-- The header `range`. -/
  range : Option String

/-- What a range request gets. -/
structure Selection where
  range : Option (Nat × Nat)
  /-- `x-amz-mp-parts-count`. -/
  partsCount : Option Nat
  deriving DecidableEq

def badPart : S3Error :=
  S3Error.invalidArgument "Part number must be an integer between 1 and 10000, inclusive"

/-- The range of a part of an object. -/
def selectPart (info : ObjectInfo) (text : String) : S3Result Selection := do
  let number ← okOr ((parseU64 text).filter fun number => 1 ≤ number) badPart
  let parts := if info.objMeta.parts.isEmpty then [info.size] else info.objMeta.parts
  rejectIf (parts.length < number) (((S3Error.new "InvalidPartNumber"
    "The requested partnumber is not satisfiable").withField "PartNumberRequested"
    (toString number)).withField "ActualPartCount" (toString parts.length))
  let start := (parts.take (number - 1)).sum
  let length := parts.getD (number - 1) 0
  return { range := if 0 < length then some (start, start + length - 1) else none
           partsCount := some parts.length }

def selectRange (info : ObjectInfo) (request : GetRequest) : S3Result Selection :=
  match request.partNumber, request.range with
  | some text, _ => selectPart info text
  | none, none => .ok { range := none, partsCount := none }
  | none, some text =>
    match parseRange text info.size with
    | none => .ok { range := none, partsCount := none }
    | some none => .error ((((S3Error.new "InvalidRange"
        "The requested range is not satisfiable").withField "RangeRequested" text).withField
        "ActualObjectSize" (toString info.size)).header "content-range"
        ("bytes */" ++ toString info.size))
    | some (some range) => .ok { range := some range, partsCount := none }

/-! ### Reading -/

/-- `substr(content, start, length)` of a positive start. -/
def substr (content : List UInt8) (start length : Nat) : List UInt8 :=
  (content.drop (start - 1)).take length

/-- `WHERE bucket = ?1 AND key = ?2 AND version_id = ?3 AND seq = ?4`. -/
def ObjectRow.isRead (row : ObjectRow) (info : ObjectInfo) : Bool :=
  row.isVersion info.bucket info.key info.versionId && row.seq == info.seq

/-- Read `[start, start+len)` of a specific version, or all of it. Returns None when that version
changed since `info` was read. -/
def readContent (store : Store) (info : ObjectInfo) (range : Option (Nat × Nat)) :
    Option (List UInt8) :=
  let row := (store.objects.find? fun row => row.isRead info).or
    ((store.versions.find? fun row => row.toObjectRow.isRead info).map VersionRow.toObjectRow)
  row.map fun row =>
    match range with
    | some (start, length) => substr row.content (start + 1) length
    | none => row.content

/-- An answer to a GetObject, as far as it depends on the range. -/
structure GetReply where
  status : Nat
  /-- `content-range`. -/
  contentRange : Option (Nat × Nat × Nat)
  partsCount : Option Nat
  /-- `content-length`. -/
  length : Nat
  body : List UInt8
  deriving DecidableEq

/-- A GetObject on the tables as they stand; `attempts` times, if the version changes meanwhile. -/
def getObject (store : Store) (bucket key : String) (versionId : Option String)
    (request : GetRequest) : Nat → S3Result GetReply
  | 0 => .error (S3Error.new "InternalError" "object changed while reading")
  | attempts + 1 => do
    let info ← resolveVersion store bucket key versionId
    let selection ← selectRange info request
    match readContent store info (selection.range.map fun range =>
        (range.1, range.2 - range.1 + 1)) with
    | none => getObject store bucket key versionId request attempts
    | some body =>
      return { status := if selection.range.isSome then 206 else 200
               contentRange := selection.range.map fun range => (range.1, range.2, info.size)
               partsCount := selection.partsCount
               length := selection.range.elim info.size fun range => range.2 - range.1 + 1
               body }

/-- `GET ?partNumber=text`, with or without a `Range` header. -/
def getPart (store : Store) (bucket key : String) (versionId : Option String) (text : String)
    (range : Option String) : S3Result GetReply :=
  getObject store bucket key versionId { partNumber := some text, range } 3

/-- A GetObject that finds its version. -/
theorem getObject_once {store : Store} {bucket key : String} {versionId : Option String}
    {request : GetRequest} {info : ObjectInfo} {selection : Selection} {body : List UInt8}
    (attempts : Nat) (resolved : resolveVersion store bucket key versionId = .ok info)
    (selected : selectRange info request = .ok selection)
    (read : readContent store info (selection.range.map fun range =>
      (range.1, range.2 - range.1 + 1)) = some body) :
    getObject store bucket key versionId request (attempts + 1) =
      .ok { status := if selection.range.isSome then 206 else 200
            contentRange := selection.range.map fun range => (range.1, range.2, info.size)
            partsCount := selection.partsCount
            length := selection.range.elim info.size fun range => range.2 - range.1 + 1
            body } := by
  refine ok_bind resolved (ok_bind selected ?_)
  rw [read]
  rfl

/-! ### The parts of an object -/

/-- **An object that was assembled from contents**, and is current. -/
structure AssembledFrom (store : Store) (bucket key : String) (contents : List (List UInt8))
    (row : ObjectRow) : Prop where
  stored : bucket ∈ store.buckets
  current : store.objects.find? (fun row => row.isFor bucket key) = some row
  read : ∀ info, row.isRead info = true →
    store.objects.find? (fun row => row.isRead info) = some row
  content : row.content = contents.flatten
  sizes : row.objMeta.parts = contents.map List.length
  size : row.size = contents.flatten.length

/-- What is read for a part number: the part, or, if it is empty, the whole object. -/
def served (contents : List (List UInt8)) (number : Nat) : List UInt8 :=
  if contents.getD (number - 1) [] = [] then contents.flatten else contents.getD (number - 1) []

/-- The bytes of a part stand where the lengths of the parts before it end. -/
theorem substr_part {contents : List (List UInt8)} {index : Nat} (inside : index < contents.length) :
    substr contents.flatten (((contents.map List.length).take index).sum + 1)
      (contents.getD index []).length = contents.getD index [] := by
  have part : contents.getD index [] = contents[index] := by
    simp [List.getD_eq_getElem?_getD, inside]
  unfold substr
  rw [Nat.add_sub_cancel, List.drop_sum_flatten, List.drop_eq_getElem_cons inside,
    List.flatten_cons, part, List.take_left]

namespace AssembledFrom

variable {store : Store} {bucket key : String} {contents : List (List UInt8)} {row : ObjectRow}

/-- The object is found without a version id, and by its own. -/
theorem resolved (assembled : AssembledFrom store bucket key contents row) {versionId : Option String}
    (own : versionId = none ∨ versionId = some row.versionId) :
    resolveVersion store bucket key versionId =
      .ok { infoFromRow row false with isLatest := true } := by
  have here : bucketExists store bucket = true := by
    simpa [bucketExists] using assembled.stored
  have found : currentInfo store bucket key = some { infoFromRow row false with isLatest := true } := by
    unfold currentInfo
    rw [assembled.current]
    rfl
  refine ok_bind (rejectIf_pass (by simp [here])) ?_
  rcases own with rfl | rfl
  · simp only [found]
  · simp only [found, Option.filter_some, infoFromRow, beq_self_eq_true, if_true]

/-- The lengths that a part number refers to. -/
theorem lengths (assembled : AssembledFrom store bucket key contents row) (some' : contents ≠ [])
    {info : ObjectInfo} (own : info = { infoFromRow row false with isLatest := true }) :
    (if info.objMeta.parts.isEmpty then [info.size] else info.objMeta.parts) =
      contents.map List.length := by
  subst own
  have sizes : row.objMeta.parts.isEmpty = false := by
    rw [assembled.sizes, List.isEmpty_eq_false_iff]
    exact fun none' => some' (List.map_eq_nil_iff.mp none')
  change (if row.objMeta.parts.isEmpty = true then [row.size] else row.objMeta.parts) = _
  rw [sizes, assembled.sizes]
  exact if_neg Bool.false_ne_true

/-- **What is read for a part number.** -/
theorem part_read (assembled : AssembledFrom store bucket key contents row)
    {versionId : Option String} (own : versionId = none ∨ versionId = some row.versionId)
    {text : String} {number : Nat} (parsed : parseU64 text = some number) (first : 1 ≤ number)
    (last : number ≤ contents.length) (range : Option String) :
    ∃ reply, getPart store bucket key versionId text range = .ok reply ∧
      reply.body = served contents number ∧ reply.length = (served contents number).length := by
  have inside : number - 1 < contents.length := by omega
  have isRead : row.isRead { infoFromRow row false with isLatest := true } = true := by
    simp [ObjectRow.isRead, ObjectRow.isVersion, ObjectRow.isFor, infoFromRow]
  have parts := assembled.lengths (List.ne_nil_of_length_pos (by omega)) rfl
  have length : (contents.map List.length).getD (number - 1) 0 =
      (contents.getD (number - 1) []).length := by
    simp [List.getD_eq_getElem?_getD, inside]
  have selected : selectPart { infoFromRow row false with isLatest := true } text =
      .ok { range := if 0 < (contents.getD (number - 1) []).length then
              some (((contents.map List.length).take (number - 1)).sum,
                ((contents.map List.length).take (number - 1)).sum +
                  (contents.getD (number - 1) []).length - 1) else none
            partsCount := some contents.length } := by
    have given : (parseU64 text).filter (fun number => 1 ≤ number) = some number := by
      rw [parsed, Option.filter_some, if_pos (by simpa using first)]
    refine ok_bind (okOr_ok.mpr given) ?_
    simp only [parts, List.length_map]
    refine ok_bind (rejectIf_pass (by omega)) ?_
    rw [length]
    rfl
  have read : ∀ range, readContent store { infoFromRow row false with isLatest := true } range =
      some (match range with
        | some (start, length) => substr row.content (start + 1) length
        | none => row.content) := by
    intro range
    unfold readContent
    rw [assembled.read _ isRead, Option.some_or]
    rfl
  unfold served
  by_cases empty : contents.getD (number - 1) [] = []
  · have none' : ¬ 0 < (contents.getD (number - 1) []).length := by
      rw [empty]
      exact Nat.not_lt_zero _
    rw [if_neg none'] at selected
    rw [if_pos empty]
    exact ⟨_, getObject_once 2 (assembled.resolved own) selected (read none), assembled.content,
      assembled.size⟩
  · have full : 0 < (contents.getD (number - 1) []).length := List.length_pos_iff.mpr empty
    have back : ((contents.map List.length).take (number - 1)).sum +
        (contents.getD (number - 1) []).length - 1 -
          ((contents.map List.length).take (number - 1)).sum + 1 =
        (contents.getD (number - 1) []).length := by omega
    rw [if_pos full] at selected
    rw [if_neg empty]
    refine ⟨_, getObject_once 2 (assembled.resolved own) selected (read _), ?_, back⟩
    change substr row.content _ (_ - _ + 1) = _
    rw [back, assembled.content, substr_part inside]

/-- A text that is not the number of a part is rejected. -/
theorem part_rejected (assembled : AssembledFrom store bucket key contents row) (some' : contents ≠ [])
    {versionId : Option String} (own : versionId = none ∨ versionId = some row.versionId)
    {text : String}
    (outside : ∀ number, parseU64 text = some number → number = 0 ∨ contents.length < number)
    (range : Option String) :
    ∃ error, getPart store bucket key versionId text range = .error error := by
  have parts := assembled.lengths some' rfl
  have rejected : ∃ error, selectPart { infoFromRow row false with isLatest := true } text =
      .error error := by
    unfold selectPart
    cases given : (parseU64 text).filter (fun number => 1 ≤ number) with
    | none => exact ⟨_, rfl⟩
    | some number =>
      obtain ⟨parsed, first⟩ := Option.filter_eq_some_iff.mp given
      have beyond : contents.length < number :=
        (outside number parsed).resolve_left fun zero => by simp [zero] at first
      simp only [parts, List.length_map]
      change ∃ error, (rejectIf (contents.length < number) _ >>= _) = .error error
      rw [show rejectIf (contents.length < number) _ = .error _ from if_pos beyond]
      exact ⟨_, rfl⟩
  obtain ⟨error, rejected⟩ := rejected
  refine ⟨error, ?_⟩
  unfold getPart getObject
  refine ok_bind (assembled.resolved own) ?_
  change (selectPart _ text >>= _) = _
  rw [rejected]
  rfl

end AssembledFrom

/-- **The parts partition the object**: read one after the other, they have the recorded lengths and
make up the content; every other part number is rejected. -/
def Partitions (store : Store) (bucket key : String) (versionId : Option String)
    (range : Option String) (sizes : List Nat) (content : List UInt8) : Prop :=
  (∃ replies : List GetReply,
    List.Forall₂ (fun number reply =>
      getPart store bucket key versionId (toString number) range = .ok reply)
      (List.range' 1 sizes.length) replies ∧
    replies.map GetReply.length = sizes ∧ replies.map (fun reply => reply.body.length) = sizes ∧
    replies.flatMap GetReply.body = content) ∧
  ∀ text, (∀ number, parseU64 text = some number → number = 0 ∨ sizes.length < number) →
    ∃ error, getPart store bucket key versionId text range = .error error

/-- The parts of an object, in the order of their numbers. -/
theorem served_range (contents : List (List UInt8)) (full : ∀ part ∈ contents, part ≠ []) :
    (List.range' 1 contents.length).map (served contents) = contents := by
  refine List.ext_getElem (by simp) fun index first second => ?_
  have part : contents.getD index [] = contents[index] := by
    simp [List.getD_eq_getElem?_getD, second]
  have some' : contents[index] ≠ [] := full _ (List.getElem_mem second)
  simp only [List.getElem_map, List.getElem_range', served]
  rw [Nat.mul_comm, Nat.mul_one, Nat.add_sub_cancel_left, part, if_neg some']

theorem AssembledFrom.partitions_iff {store : Store} {bucket key : String}
    {contents : List (List UInt8)} {row : ObjectRow}
    (assembled : AssembledFrom store bucket key contents row) (some' : contents ≠ [])
    (small : contents.length < 2 ^ 64) {versionId : Option String}
    (own : versionId = none ∨ versionId = some row.versionId) (range : Option String) :
    Partitions store bucket key versionId range row.objMeta.parts row.content ↔
      (∀ part ∈ contents, part ≠ []) ∨ ∀ part ∈ contents, part = [] := by
  have replies : ∀ numbers : List Nat, (∀ number ∈ numbers, 1 ≤ number ∧ number ≤ contents.length) →
      ∃ replies : List GetReply,
        List.Forall₂ (fun number reply =>
          getPart store bucket key versionId (toString number) range = .ok reply) numbers replies ∧
        replies.map GetReply.body = numbers.map (served contents) ∧
        replies.map GetReply.length = numbers.map fun number => (served contents number).length := by
    intro numbers
    induction numbers with
    | nil => exact fun _ => ⟨[], .nil, rfl, rfl⟩
    | cons number numbers ih =>
      intro each
      obtain ⟨first, last⟩ := each number (List.mem_cons_self ..)
      obtain ⟨reply, read, body, length⟩ := assembled.part_read own
        (parseU64_toString (by omega)) first last range
      obtain ⟨replies, reads, bodies, lengths⟩ := ih fun other member =>
        each other (List.mem_cons_of_mem _ member)
      exact ⟨reply :: replies, .cons read reads, by rw [List.map_cons, body, bodies]; rfl,
        by rw [List.map_cons, length, lengths]; rfl⟩
  have inside : ∀ number ∈ List.range' 1 contents.length, 1 ≤ number ∧ number ≤ contents.length := by
    intro number member
    rw [List.mem_range'_1] at member
    omega
  have rejected : ∀ text, (∀ number, parseU64 text = some number → number = 0 ∨
      (contents.map List.length).length < number) →
      ∃ error, getPart store bucket key versionId text range = .error error := by
    intro text outside
    rw [List.length_map] at outside
    exact assembled.part_rejected some' own outside range
  obtain ⟨given, reads, bodies, lengths⟩ := replies _ inside
  rw [Partitions, assembled.sizes, assembled.content, List.length_map]
  constructor
  · rintro ⟨⟨others, otherReads, otherLengths, _, _⟩, _⟩
    by_cases full : ∀ part ∈ contents, part ≠ []
    · exact Or.inl full
    · right
      -- An empty part is served as the whole object, which is then empty.
      have unique : Relator.RightUnique fun (number : Nat) (reply : GetReply) =>
          getPart store bucket key versionId (toString number) range = .ok reply :=
        fun _ _ _ first second => Except.ok.inj (first.symm.trans second)
      have same : given = others := List.right_unique_forall₂' unique reads otherReads
      subst same
      rw [lengths] at otherLengths
      obtain ⟨part, member, empty⟩ : ∃ part ∈ contents, part = [] := by simpa using full
      obtain ⟨index, inRange, rfl⟩ := List.getElem_of_mem member
      have at' := congrArg (fun list => list[index]?) otherLengths
      have found : contents.getD index [] = [] := by
        simpa [List.getD_eq_getElem?_getD, inRange] using empty
      simp only [List.getElem?_map, List.getElem?_range' inRange, Nat.one_mul, Option.map_some,
        served, Nat.add_sub_cancel_left, found, if_true, List.getElem?_eq_getElem inRange, empty,
        Option.some.injEq, List.length_nil, List.length_eq_zero_iff] at at'
      exact List.flatten_eq_nil_iff.mp at'
  · intro condition
    refine ⟨⟨given, reads, ?_⟩, by simpa only [List.length_map] using rejected⟩
    have bodyLengths : given.map (fun reply => reply.body.length) =
        (List.range' 1 contents.length).map fun number => (served contents number).length := by
      have mapped := congrArg (List.map List.length) bodies
      rw [List.map_map, List.map_map] at mapped
      exact mapped
    have joined : given.flatMap GetReply.body =
        ((List.range' 1 contents.length).map (served contents)).flatten := by
      rw [List.flatMap_def, bodies]
    have sizes : ((List.range' 1 contents.length).map fun number => (served contents number).length) =
        contents.map List.length ∧
        ((List.range' 1 contents.length).map (served contents)).flatten = contents.flatten := by
      rcases condition with full | empty
      · have all := served_range contents full
        have mapped := congrArg (List.map List.length) all
        rw [List.map_map] at mapped
        exact ⟨mapped, by rw [all]⟩
      · have whole : contents.flatten = [] := List.flatten_eq_nil_iff.mpr empty
        have nothing : ∀ number, served contents number = [] := by
          intro number
          unfold served
          split
          · exact whole
          · rename_i other
            by_cases inRange : number - 1 < contents.length
            · refine absurd ?_ other
              simpa [List.getD_eq_getElem?_getD, inRange] using empty _ (List.getElem_mem inRange)
            · refine absurd ?_ other
              simp [List.getD_eq_getElem?_getD, inRange]
        constructor
        · refine List.ext_getElem (by simp) fun index first second => ?_
          have inRange : index < contents.length := by simpa using second
          simp [nothing, empty _ (List.getElem_mem inRange)]
        · simp [nothing, whole]
    exact ⟨lengths.trans sizes.1, bodyLengths.trans sizes.1, joined.trans sizes.2⟩

section External

variable [External] [S3External]

/-- What a completed upload has stored. -/
theorem assembledFrom_completed {history : List S3Event} {store after : Store}
    (run : S3Run history store) {bucket key uploadId : String} {requested : List (Int × String)}
    {now : Int} {result : WriteResult}
    (done : completeUpload store bucket key uploadId requested now = .ok (result, after)) :
    ∃ parts row, requestedParts store uploadId requested = .ok parts ∧ parts ≠ [] ∧
      parts.length ≤ 10000 ∧ row.versionId = result.versionId ∧
      after.objects.find? (fun row => row.isFor bucket key) = some row ∧
      AssembledFrom after bucket key (parts.map PartRow.content) row := by
  obtain ⟨some', order, upload, parts, written, found, known, wrote, rfl⟩ := completeUpload_ok.mp done
  have named := requestedParts_ok.mp known
  have latest := parts_run run
  obtain ⟨stored, _, _⟩ := uploadRow_ok found
  obtain ⟨row, others, objects, away, own, keyed, content, size, _, sizes, version, _, _⟩ :=
    writeObjectTx_written wrote
  -- The part numbers are different numbers of a finite range.
  have few : requested.length ≤ 10000 := by
    have range : ∀ part ∈ requested, 1 ≤ part.1 ∧ part.1 ≤ 10000 := by
      intro part member
      obtain ⟨index, inside, rfl⟩ := List.getElem_of_mem member
      have here := (List.forall₂_iff_get.mp named).2 index inside (named.length_eq ▸ inside)
      have row := List.find?_some here.1
      simp only [Bool.and_eq_true, beq_iff_eq] at row
      have number := (latest.uploaded _ (List.mem_of_find?_eq_some here.1)).number
      rw [row.2] at number
      exact number
    have distinct : (requested.map Prod.fst).Nodup := by
      rw [List.Nodup, List.pairwise_map]
      exact (ascending_iff.mp order).imp fun less => less.ne
    have subset : (requested.map Prod.fst).toFinset ⊆ Finset.Icc 1 10000 := by
      intro number member
      obtain ⟨part, memberPart, rfl⟩ := List.mem_map.mp (List.mem_toFinset.mp member)
      exact Finset.mem_Icc.mpr (range part memberPart)
    have bound := Finset.card_le_card subset
    rw [List.toFinset_card_of_nodup distinct, List.length_map, Int.card_Icc] at bound
    exact bound
  have current : (dropUpload written uploadId).objects.find? (fun row => row.isFor bucket key) =
      some row := by
    change written.objects.find? _ = _
    rw [objects]
    exact find_written away (fun _ found => found) (isFor_iff.mpr ⟨own, keyed⟩)
  have joined : parts.flatMap PartRow.content = (parts.map PartRow.content).flatten :=
    List.flatMap_def ..
  refine ⟨parts, row, known, fun none' => some' ?_, named.length_eq ▸ few, version.symm, current, ?_,
    current, fun info isRead => ?_, content.trans joined, ?_, ?_⟩
  · have same := named.length_eq
    rw [none'] at same
    exact List.length_eq_zero_iff.mp same
  · change bucket ∈ written.buckets
    rw [(moves_writeObject wrote).2.buckets]
    exact stored
  · change written.objects.find? _ = _
    have read : info.bucket = bucket ∧ info.key = key := by
      simp only [ObjectRow.isRead, ObjectRow.isVersion, ObjectRow.isFor, Bool.and_eq_true,
        beq_iff_eq] at isRead
      exact ⟨isRead.1.1.1.symm.trans own, isRead.1.1.2.symm.trans keyed⟩
    rw [objects]
    refine find_written away (fun old found => ?_) isRead
    simp only [ObjectRow.isRead, ObjectRow.isVersion, ObjectRow.isFor, Bool.and_eq_true,
      beq_iff_eq] at found
    exact isFor_iff.mpr ⟨found.1.1.1.trans read.1, found.1.1.2.trans read.2⟩
  · rw [sizes, List.map_map]
    rfl
  · rw [size]
    exact congrArg List.length joined

/-- **Reading a completed upload by part numbers**: in every run, the parts partition the object
exactly when none of the parts that were listed is empty, or all are. -/
theorem parts_partition {history : List S3Event} {store after : Store} (run : S3Run history store)
    {bucket key uploadId : String} {requested : List (Int × String)} {now : Int}
    {result : WriteResult}
    (done : completeUpload store bucket key uploadId requested now = .ok (result, after))
    {versionId : Option String} (own : versionId = none ∨ versionId = some result.versionId)
    (range : Option String) :
    ∃ parts row, requestedParts store uploadId requested = .ok parts ∧
      after.objects.find? (fun row => row.isFor bucket key) = some row ∧
      (Partitions after bucket key versionId range row.objMeta.parts row.content ↔
        (∀ part ∈ parts, part.content ≠ []) ∨ ∀ part ∈ parts, part.content = []) := by
  obtain ⟨parts, row, known, some', few, version, current, assembled⟩ :=
    assembledFrom_completed run done
  refine ⟨parts, row, known, current, ?_⟩
  rw [assembled.partitions_iff (by simpa using some') (by rw [List.length_map]; omega)
    (version ▸ own) range]
  simp only [List.mem_map, forall_exists_index, and_imp, forall_apply_eq_imp_iff₂]

end External

section Sample

attribute [local instance] multipartCrates S3External.sample

/-- An upload of two parts, the second of which is empty. -/
def emptyPart : List Call :=
  [.createBucket "b", .createUpload "b" "k" "text/plain" ObjMeta.default [],
    .uploadPart "b" "k" (simpleUuid (External.uuid 0)) 1 (utf8 "hello") ObjMeta.default,
    .uploadPart "b" "k" (simpleUuid (External.uuid 0)) 2 [] ObjMeta.default,
    .completeUpload "b" "k" (simpleUuid (External.uuid 0))
      [(1, "5d41402abc4b2a76b9719d911017c592"), (2, "d41d8cd98f00b204e9800998ecf8427e")]]

/-- The empty part is served as the whole object. -/
theorem empty_part_read :
    (Run.final perform Store.empty (sampleInputs emptyPart)).objects.map (fun row =>
        (row.objMeta.parts, row.content)) = [([5, 0], utf8 "hello")] ∧
      getPart (Run.final perform Store.empty (sampleInputs emptyPart)) "b" "k" none "2" none =
        .ok { status := 200, contentRange := none, partsCount := some 2, length := 5
              body := utf8 "hello" } := by
  decide

/-- An upload of two parts: reading them by number reads the object once. -/
theorem parts_partition_sample : ∃ result after row,
    completeUpload sampleUploaded "b" "k" (simpleUuid (External.uuid 0)) sampleParts 0 =
      .ok (result, after) ∧
    after.objects.find? (fun row => row.isFor "b" "k") = some row ∧
    row.objMeta.parts.length = 2 ∧ Partitions after "b" "k" none none row.objMeta.parts row.content := by
  have succeeds : ∃ pair, completeUpload sampleUploaded "b" "k" (simpleUuid (External.uuid 0))
      sampleParts 0 = .ok pair := ⟨_, rfl⟩
  obtain ⟨⟨result, after⟩, done⟩ := succeeds
  obtain ⟨parts, row, known, current, partition⟩ := parts_partition
    (Run.of_trace perform (sampleInputs sampleUpload) Store.empty) done (Or.inl rfl) none
  have filled : (requestedParts sampleUploaded (simpleUuid (External.uuid 0)) sampleParts).toOption.map
      (fun parts => parts.all fun part => !part.content.isEmpty) = some true := by decide
  have counted : ((completeUpload sampleUploaded "b" "k" (simpleUuid (External.uuid 0)) sampleParts
      0).toOption.bind fun pair => (pair.2.objects.find? fun row => row.isFor "b" "k").map fun row =>
        row.objMeta.parts.length) = some 2 := by decide
  refine ⟨result, after, row, done, current, ?_, partition.mpr (.inl fun part member empty => ?_)⟩
  · rw [done] at counted
    have found : ((after.objects.find? fun row => row.isFor "b" "k").map fun row =>
        row.objMeta.parts.length) = some 2 := counted
    rw [current] at found
    exact Option.some.inj found
  · have known : requestedParts sampleUploaded (simpleUuid (External.uuid 0)) sampleParts = .ok parts := known
    rw [known] at filled
    have each := List.all_eq_true.mp (Option.some.inj filled) part member
    rw [empty] at each
    exact absurd each (by decide)

end Sample

end CloudTwin.S3
