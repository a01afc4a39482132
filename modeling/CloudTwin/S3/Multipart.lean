/-
**Multipart uploads** (`aws/s3/service.rs`, `complete_upload` and `upload_part`).

A part that is uploaded again replaces the one before it, so what a completed upload is made of are
the latest contents of the parts that the request names. All of it happens in one call on the
database: a failure, wherever in the list of parts, leaves the tables as they were.

* `latestContent` — the content last uploaded as a part, told from the history alone.
* `parts_run` — in every run, the table of parts holds the latest contents and their ETags.
* `requestedParts_ok`, `completeUpload_ok` — what the request finds, and what it stores.
* `complete_upload_assembles` — when a request succeeds, and what it leaves.
-/

import CloudTwin.S3.References

namespace CloudTwin.S3

open Lib Lib.Text

set_option linter.unusedSectionVars false

/-! ### Hexadecimal digests -/

/-- `hex::encode`. -/
def hexEncode (bytes : List UInt8) : List Char :=
  bytes.flatMap fun byte => [Nat.digitChar (byte.toNat / 16), Nat.digitChar (byte.toNat % 16)]

/-- **What the service relies on about MD5**: the text of a digest is its hexadecimal digits. -/
def Md5Laws (external : External) (md5 : List UInt8 → List UInt8) : Prop :=
  ∀ content, external.md5Hex content = String.ofList (hexEncode (md5 content))

theorem digitChar_unquoted : ∀ digit < 16, Nat.digitChar digit ≠ '"' := by
  decide

theorem hexDecode_hexEncode (bytes : List UInt8) : hexDecode (hexEncode bytes) = some bytes := by
  induction bytes with
  | nil => rfl
  | cons byte bytes ih =>
    have small := byte.toNat_lt
    have whole : UInt8.ofNat (byte.toNat / 16 * 16 + byte.toNat % 16) = byte := by
      rw [Nat.div_add_mod', UInt8.ofNat_toNat]
    change hexDecode (Nat.digitChar _ :: Nat.digitChar _ :: hexEncode bytes) = _
    simp only [hexDecode, hexValue_digitChar (byte.toNat / 16) (by omega),
      hexValue_digitChar (byte.toNat % 16) (by omega), ih, Option.bind_eq_bind, Option.bind_some, whole]
    rfl

theorem hexEncode_unquoted (bytes : List UInt8) : ∀ char ∈ hexEncode bytes, char ≠ '"' := by
  intro char member
  obtain ⟨byte, _, digit⟩ := List.mem_flatMap.mp member
  have small := byte.toNat_lt
  rcases List.mem_cons.mp digit with rfl | low
  · exact digitChar_unquoted _ (by omega)
  · rw [List.mem_singleton.mp low]
    exact digitChar_unquoted _ (by omega)

/-- Quotes around a text without quotes are trimmed. -/
theorem trimQuotes_quoted {chars : List Char} (unquoted : ∀ char ∈ chars, char ≠ '"') :
    trimQuotes ("\"" ++ String.ofList chars ++ "\"") = String.ofList chars := by
  have kept : ∀ {list : List Char}, (∀ char ∈ list, char ≠ '"') → ∀ rest : List Char,
      list ≠ [] → (list ++ rest).dropWhile (· == '"') = list ++ rest := by
    intro list plain rest some'
    cases list with
    | nil => exact absurd rfl some'
    | cons first list =>
      rw [List.cons_append, List.dropWhile_cons_of_neg]
      simpa using plain first (List.mem_cons_self ..)
  have list : ("\"" ++ String.ofList chars ++ "\"").toList = '"' :: (chars ++ ['"']) := by
    simp [String.toList_append]
  unfold trimQuotes
  rw [list, List.dropWhile_cons_of_pos (by decide)]
  by_cases empty : chars = []
  · subst empty
    rfl
  · have reversed : ∀ char ∈ chars.reverse, char ≠ '"' := fun char member =>
      unquoted char (List.mem_reverse.mp member)
    have back := kept reversed [] (by simpa using empty)
    rw [List.append_nil] at back
    rw [kept unquoted _ empty, List.reverse_append]
    change String.ofList ((('"' :: chars.reverse).dropWhile _).reverse) = _
    rw [List.dropWhile_cons_of_pos (by decide), back, List.reverse_reverse]

section External

variable [External] [S3External] {md5 : List UInt8 → List UInt8}

theorem trimQuotes_md5Etag (laws : Md5Laws ‹External› md5) (content : List UInt8) :
    trimQuotes (md5Etag content) = String.ofList (hexEncode (md5 content)) := by
  unfold md5Etag
  rw [laws content]
  exact trimQuotes_quoted (hexEncode_unquoted _)

/-! ### The latest content of a part -/

/-- What a call does to the content last uploaded as a part. -/
def latestAfter (uploadId : String) (partNumber : Int) (latest : Option (List UInt8))
    (event : S3Event) : Option (List UInt8) :=
  match event.output, event.input.call with
  | .error _, _ => latest
  | .ok _, .uploadPart _ _ toUpload number content _ =>
    if toUpload = uploadId ∧ number = partNumber then some content else latest
  | .ok _, .completeUpload _ _ ended _ => if ended = uploadId then none else latest
  | .ok _, .abortUpload _ _ ended => if ended = uploadId then none else latest
  | .ok _, .deleteBucket name =>
    if event.before.uploads.any fun row => row.bucket == name && row.uploadId == uploadId then none
    else latest
  | .ok _, _ => latest

/-- **The content last uploaded as a part** of an upload that has not ended since. -/
def latestContent (history : List S3Event) (uploadId : String) (partNumber : Int) :
    Option (List UInt8) :=
  history.foldl (latestAfter uploadId partNumber) none

/-- The row of a part. -/
def partOf (store : Store) (uploadId : String) (partNumber : Int) : Option PartRow :=
  store.parts.find? fun row => row.uploadId == uploadId && row.partNumber == partNumber

/-- A row that `upload_part` has inserted. -/
structure Uploaded (row : PartRow) : Prop where
  etag : row.etag = md5Etag row.content
  number : 1 ≤ row.partNumber ∧ row.partNumber ≤ 10000

/-- **The table of parts holds the latest contents and their ETags.** -/
structure PartsLatest (history : List S3Event) (store : Store) : Prop where
  content : ∀ uploadId partNumber, (partOf store uploadId partNumber).map PartRow.content =
    latestContent history uploadId partNumber
  uploaded : ∀ row ∈ store.parts, Uploaded row

/-- What a call does to one part. -/
def PartStep (event : S3Event) : Prop :=
  (∀ uploadId partNumber, (partOf event.after uploadId partNumber).map PartRow.content =
    latestAfter uploadId partNumber ((partOf event.before uploadId partNumber).map PartRow.content)
      event) ∧
  ∀ row ∈ event.after.parts, row ∈ event.before.parts ∨ Uploaded row

/-- A call that leaves the parts alone. -/
theorem PartStep.of_same {event : S3Event} (same : event.after.parts = event.before.parts)
    (kept : ∀ uploadId partNumber latest, latestAfter uploadId partNumber latest event = latest) :
    PartStep event := by
  refine ⟨fun uploadId partNumber => ?_, fun row member => Or.inl (same ▸ member)⟩
  rw [kept, partOf, same]
  rfl

/-- A call that ends uploads. -/
theorem PartStep.of_ended {event : S3Event} (ended : String → Bool)
    (parts : event.after.parts = event.before.parts.filter fun row => !ended row.uploadId)
    (effect : ∀ uploadId partNumber latest, latestAfter uploadId partNumber latest event =
      if ended uploadId = true then none else latest) : PartStep event := by
  refine ⟨fun uploadId partNumber => ?_, fun row member => ?_⟩
  · rw [effect, partOf, parts]
    by_cases gone : ended uploadId = true
    · rw [if_pos gone, Option.map_eq_none_iff, List.find?_eq_none]
      intro row member named
      have other := (List.mem_filter.mp member).2
      simp only [Bool.and_eq_true, beq_iff_eq] at named
      rw [named.1, gone] at other
      exact absurd other (by decide)
    · rw [if_neg gone, find_filter_same]
      · rfl
      · intro row _ named
        simp only [Bool.and_eq_true, beq_iff_eq] at named
        rw [named.1]
        simpa using gone
  · rw [parts] at member
    exact Or.inl (List.mem_filter.mp member).1

theorem partStep_uploadPart {event : S3Event} {bucket key uploadId : String} {partNumber : Int}
    {content : List UInt8} {objMeta : ObjMeta} {etag : String} {value : Response}
    (call : event.input.call = .uploadPart bucket key uploadId partNumber content objMeta)
    (answered : event.output = .ok value)
    (made : uploadPart event.before bucket key uploadId partNumber content objMeta event.input.now =
      .ok (etag, event.after)) : PartStep event := by
  obtain ⟨_, numbered, rest⟩ := bind_ok made
  obtain ⟨_, _, rest⟩ := bind_ok rest
  have parts := congrArg Store.parts (Prod.mk.inj (Except.ok.inj rest)).2.symm
  refine ⟨fun otherId otherNumber => ?_, fun row member => ?_⟩
  · simp only [latestAfter, answered, call]
    rw [partOf, parts, List.find?_append]
    by_cases same : uploadId = otherId ∧ partNumber = otherNumber
    · obtain ⟨rfl, rfl⟩ := same
      have gone : (event.before.parts.filter fun row => !(row.uploadId == uploadId &&
          row.partNumber == partNumber)).find? (fun row => row.uploadId == uploadId &&
            row.partNumber == partNumber) = none := by
        rw [List.find?_eq_none]
        intro row member named
        have other := (List.mem_filter.mp member).2
        rw [named] at other
        exact absurd other (by decide)
      rw [gone]
      simp
    · have others : (event.before.parts.filter fun row => !(row.uploadId == uploadId &&
          row.partNumber == partNumber)).find? (fun row => row.uploadId == otherId &&
            row.partNumber == otherNumber) = partOf event.before otherId otherNumber := by
        refine find_filter_same fun row _ named => ?_
        rw [Bool.not_eq_true', Bool.eq_false_iff]
        intro own
        simp only [Bool.and_eq_true, beq_iff_eq] at own named
        exact same ⟨own.1.symm.trans named.1, own.2.symm.trans named.2⟩
      rw [others, if_neg same]
      have absent : (uploadId == otherId && partNumber == otherNumber) = false := by
        simpa using same
      simp [absent]
  · rw [parts] at member
    rcases List.mem_append.mp member with old | new
    · exact Or.inl (List.mem_filter.mp old).1
    · rw [List.mem_singleton.mp new]
      exact Or.inr ⟨rfl, not_not.mp (rejectIf_ok.mp numbered)⟩

theorem partStep_deleteBucket {event : S3Event} {name : String} {value : Response}
    (call : event.input.call = .deleteBucket name) (answered : event.output = .ok value)
    (made : deleteBucket event.before name = .ok event.after) : PartStep event := by
  obtain ⟨_, _, rest⟩ := bind_ok made
  obtain ⟨_, _, rest⟩ := bind_ok rest
  refine PartStep.of_ended (fun uploadId => event.before.uploads.any fun row =>
    row.bucket == name && row.uploadId == uploadId) ?_ fun uploadId partNumber latest => ?_
  · rw [← Except.ok.inj rest]
  · simp only [latestAfter, answered, call]

theorem partStep_ended {event : S3Event} {uploadId : String} {middle : Store}
    (same : middle.parts = event.before.parts) (after : dropUpload middle uploadId = event.after)
    (effect : ∀ other partNumber latest, latestAfter other partNumber latest event =
      if uploadId = other then none else latest) : PartStep event := by
  refine PartStep.of_ended (fun other => other == uploadId) ?_ fun other partNumber latest => ?_
  · rw [← after, ← same]
    rfl
  · rw [effect]
    by_cases here : uploadId = other
    · rw [if_pos here, if_pos (beq_iff_eq.mpr here.symm)]
    · rw [if_neg here, if_neg fun equal => here (beq_iff_eq.mp equal).symm]

/-- What a completion has found, and what it has written. -/
theorem completeUpload_ok {store after : Store} {bucket key uploadId : String}
    {requested : List (Int × String)} {now : Int} {result : WriteResult} :
    completeUpload store bucket key uploadId requested now = .ok (result, after) ↔
      requested ≠ [] ∧ ascending requested = true ∧ ∃ upload parts written,
        uploadRow store bucket key uploadId = .ok upload ∧
        requestedParts store uploadId requested = .ok parts ∧
        writeObjectTx store bucket key (assembled upload parts) now = .ok (result, written) ∧
        dropUpload written uploadId = after := by
  constructor
  · intro done
    obtain ⟨_, some', done⟩ := bind_ok done
    obtain ⟨_, order, done⟩ := bind_ok done
    obtain ⟨upload, found, done⟩ := bind_ok done
    obtain ⟨parts, known, done⟩ := bind_ok done
    obtain ⟨⟨_, written⟩, wrote, done⟩ := bind_ok done
    cases done
    rw [rejectIf_ok] at some' order
    exact ⟨by simpa using some', by simpa using order, upload, parts, written, found, known, wrote,
      rfl⟩
  · rintro ⟨some', order, upload, parts, written, found, known, wrote, rfl⟩
    refine ok_bind (rejectIf_pass (by simpa using some')) (ok_bind (rejectIf_pass (by simp [order])) ?_)
    exact ok_bind found (ok_bind known (ok_bind wrote rfl))

/-- **Every call keeps the table of parts in step with the history.** -/
theorem partStep_taken {event : S3Event} (taken : event.Taken perform) : PartStep event := by
  rcases taken_commit taken with ⟨error, failed, same⟩ | ⟨value, answered, done⟩
  · exact PartStep.of_same (by rw [same]) fun _ _ latest => by simp only [latestAfter, failed]
  · have alone : event.after.parts = event.before.parts →
        (∀ uploadId partNumber latest, latestAfter uploadId partNumber latest event = latest) →
        PartStep event := PartStep.of_same
    unfold execute at done
    cases call : event.input.call with
    | createBucket name =>
      simp only [call] at done
      refine alone ?_ fun _ _ latest => by simp only [latestAfter, answered, call]
      rw [← (Prod.mk.inj (Except.ok.inj done)).2, createBucket]
      split
      · rfl
      · rfl
    | deleteBucket name =>
      simp only [call] at done
      exact partStep_deleteBucket call answered (noAnswer_ok done).1
    | putConfig bucket kind body =>
      simp only [call] at done
      refine alone ?_ fun _ _ latest => by simp only [latestAfter, answered, call]
      obtain ⟨_, _, rest⟩ := bind_ok (noAnswer_ok done).1
      rw [← Except.ok.inj rest]
    | deleteConfig bucket kind =>
      simp only [call] at done
      refine alone ?_ fun _ _ latest => by simp only [latestAfter, answered, call]
      obtain ⟨_, _, rest⟩ := bind_ok (noAnswer_ok done).1
      rw [← Except.ok.inj rest]
    | objectInfo bucket key versionId =>
      simp only [call] at done
      refine alone ?_ fun _ _ latest => by simp only [latestAfter, answered, call]
      cases found : resolveVersion event.before bucket key versionId with
      | error error => rw [found] at done; cases done
      | ok info => rw [found] at done; rw [← (Prod.mk.inj (Except.ok.inj done)).2]
    | writeObject bucket key obj =>
      simp only [call] at done
      refine alone ?_ fun _ _ latest => by simp only [latestAfter, answered, call]
      obtain ⟨_, made, _⟩ := answerWith_ok done
      exact (moves_writeObject made).2.parts
    | deleteObject bucket key versionId =>
      simp only [call] at done
      refine alone ?_ fun _ _ latest => by simp only [latestAfter, answered, call]
      obtain ⟨_, made, _⟩ := answerWith_ok done
      exact (moves_deleteObject made).2.parts
    | setObjectTags bucket key versionId tags =>
      simp only [call] at done
      refine alone ?_ fun _ _ latest => by simp only [latestAfter, answered, call]
      obtain ⟨_, made, _⟩ := answerWith_ok done
      exact (moves_setObjectTags made).parts
    | createUpload bucket key contentType objMeta tags =>
      simp only [call] at done
      refine alone ?_ fun _ _ latest => by simp only [latestAfter, answered, call]
      obtain ⟨_, made, _⟩ := answerWith_ok done
      obtain ⟨_, _, rest⟩ := bind_ok made
      rw [← (Prod.mk.inj (Except.ok.inj rest)).2]
    | uploadPart bucket key uploadId partNumber content objMeta =>
      simp only [call] at done
      obtain ⟨_, made, _⟩ := answerWith_ok done
      exact partStep_uploadPart call answered made
    | completeUpload bucket key uploadId requested =>
      simp only [call] at done
      obtain ⟨_, made, _⟩ := answerWith_ok done
      obtain ⟨_, _, _, _, written, _, _, wrote, after⟩ := completeUpload_ok.mp made
      exact partStep_ended (moves_writeObject wrote).2.parts after fun _ _ latest => by
        simp only [latestAfter, answered, call]
    | abortUpload bucket key uploadId =>
      simp only [call] at done
      obtain ⟨_, _, rest⟩ := bind_ok (noAnswer_ok done).1
      exact partStep_ended rfl (Except.ok.inj rest) fun _ _ latest => by
        simp only [latestAfter, answered, call]

/-- **In every run, the parts are the latest contents.** -/
theorem parts_run {history : List S3Event} {store : Store} (run : S3Run history store) :
    PartsLatest history store := by
  induction run with
  | start => exact ⟨fun _ _ => rfl, fun _ member => absurd member (List.not_mem_nil)⟩
  | next run taken ih =>
    obtain ⟨content, uploaded⟩ := partStep_taken taken
    refine ⟨fun uploadId partNumber => ?_, fun row member => ?_⟩
    · rw [content, ih.content, latestContent, latestContent, List.foldl_append]
      rfl
    · rcases uploaded row member with old | new
      · exact ih.uploaded row old
      · exact new

/-! ### Completing -/

theorem ascending_iff {requested : List (Int × String)} :
    ascending requested = true ↔ requested.Pairwise fun first second => first.1 < second.1 := by
  induction requested with
  | nil => simp [ascending]
  | cons first rest ih =>
    cases rest with
    | nil => simp [ascending]
    | cons second rest =>
      rw [ascending, Bool.and_eq_true, decide_eq_true_iff, ih,
        List.pairwise_cons (a := first)]
      refine and_congr_left fun sorted => ⟨fun less other member => ?_, fun each =>
        each second (List.mem_cons_self ..)⟩
      rcases List.mem_cons.mp member with rfl | later
      · exact less
      · exact less.trans ((List.pairwise_cons.mp sorted).1 other later)

/-- The parts that a request finds: those that it names, with the ETags that it names. -/
theorem requestedParts_ok {store : Store} {uploadId : String} :
    ∀ {requested : List (Int × String)} {parts : List PartRow},
      requestedParts store uploadId requested = .ok parts ↔
        List.Forall₂ (fun part row => partOf store uploadId part.1 = some row ∧
          trimQuotes row.etag = trimQuotes (trim part.2)) requested parts := by
  intro requested
  induction requested with
  | nil =>
    intro parts
    rw [List.forall₂_nil_left_iff, requestedParts, Except.ok.injEq, eq_comm]
  | cons part requested ih =>
    intro parts
    rw [List.forall₂_cons_left_iff]
    constructor
    · intro done
      obtain ⟨row, found, done⟩ := bind_ok done
      obtain ⟨rows, known, done⟩ := bind_ok done
      cases done
      rw [okOr_ok, Option.filter_eq_some_iff, beq_iff_eq] at found
      exact ⟨row, rows, found, ih.mp known, rfl⟩
    · rintro ⟨row, rows, ⟨found, tagged⟩, known, rfl⟩
      refine ok_bind (okOr_ok.mpr ?_) (ok_bind (ih.mpr known) rfl)
      exact Option.filter_eq_some_iff.mpr ⟨found, beq_iff_eq.mpr tagged⟩

theorem applyDefaultSse_parts (store : Store) (bucket : String) (objMeta : ObjMeta) :
    (applyDefaultSse store bucket objMeta).parts = objMeta.parts := by
  unfold applyDefaultSse
  split
  · rfl
  · rfl

/-- **The objects after a write**: those of other keys, and the one that was written. -/
theorem writeObjectTx_written {store after : Store} {bucket key : String} {obj : NewObject}
    {now : Int} {result : WriteResult}
    (done : writeObjectTx store bucket key obj now = .ok (result, after)) :
    ∃ row others, after.objects = others ++ [row] ∧
      (∀ old ∈ others, old.isFor bucket key = false) ∧ row.bucket = bucket ∧ row.key = key ∧
      row.content = obj.content ∧ row.size = obj.content.length ∧ row.etag = obj.etag ∧
      row.objMeta.parts = obj.objMeta.parts ∧ result.versionId = row.versionId ∧
      result.etag = row.etag ∧ result.size = row.size := by
  obtain ⟨versioning, _, rest⟩ := bind_ok done
  obtain ⟨answer, stored⟩ := Prod.mk.inj (Except.ok.inj rest)
  have objects := congrArg Store.objects stored.symm
  rw [addObject] at objects
  refine ⟨_, _, objects, fun old member => ?_, rfl, rfl, rfl, rfl, rfl, ?_, ?_, ?_, ?_⟩
  · rw [dropNull_objects, displace_objects] at member
    simpa using (List.mem_filter.mp member).2
  · exact applyDefaultSse_parts store bucket obj.objMeta
  · rw [← answer]
  · rw [← answer]
  · rw [← answer]

theorem find_written {others : List ObjectRow} {row : ObjectRow} {bucket key : String}
    {condition : ObjectRow → Bool} (away : ∀ old ∈ others, old.isFor bucket key = false)
    (narrow : ∀ old, condition old = true → old.isFor bucket key = true)
    (here : condition row = true) : (others ++ [row]).find? condition = some row := by
  have gone : others.find? condition = none := by
    rw [List.find?_eq_none]
    intro old member found
    have other := away old member
    rw [narrow old found] at other
    cases other
  rw [List.find?_append, gone, Option.none_or]
  exact List.find?_cons_of_pos here

theorem uploadRow_iff {store : Store} (referenced : Referenced store) {bucket key uploadId : String} :
    (∃ upload, uploadRow store bucket key uploadId = .ok upload) ↔
      ∃ upload ∈ store.uploads, upload.uploadId = uploadId ∧ upload.bucket = bucket ∧
        upload.key = key := by
  constructor
  · rintro ⟨upload, done⟩
    obtain ⟨_, _, found⟩ := bind_ok done
    rw [okOr_ok] at found
    have named := List.find?_some found
    simp only [Bool.and_eq_true, beq_iff_eq] at named
    exact ⟨upload, List.mem_of_find?_eq_some found, named.1.1, named.1.2, named.2⟩
  · rintro ⟨upload, member, sameId, sameBucket, sameKey⟩
    have stored : bucketExists store bucket = true := by
      simpa [bucketExists, ← sameBucket] using referenced.uploads upload member
    have found : (store.uploads.find? fun row =>
        row.uploadId == uploadId && row.bucket == bucket && row.key == key).isSome := by
      rw [List.find?_isSome]
      exact ⟨upload, member, by simp [sameId, sameBucket, sameKey]⟩
    obtain ⟨row, here⟩ := Option.isSome_iff_exists.mp found
    exact ⟨row, ok_bind (rejectIf_pass (by simp [stored])) (okOr_ok.mpr here)⟩

/-- What the request names, in terms of the history. -/
theorem requested_latest (laws : Md5Laws ‹External› md5) {history : List S3Event} {store : Store}
    (latest : PartsLatest history store) {uploadId : String} :
    ∀ {requested : List (Int × String)} {parts : List PartRow},
      List.Forall₂ (fun part row => partOf store uploadId part.1 = some row ∧
          trimQuotes row.etag = trimQuotes (trim part.2)) requested parts →
        requested.map (fun part => latestContent history uploadId part.1) =
            (parts.map PartRow.content).map some ∧
          (parts.flatMap fun row => (hexDecode (trimQuotes row.etag).toList).getD []) =
            (parts.map PartRow.content).flatMap md5 := by
  intro requested parts found
  induction found with
  | nil => exact ⟨rfl, rfl⟩
  | @cons part row _ _ here _ ih =>
    have content := latest.content uploadId part.1
    rw [here.1] at content
    have digest : (hexDecode (trimQuotes row.etag).toList).getD [] = md5 row.content := by
      rw [(latest.uploaded row (List.mem_of_find?_eq_some here.1)).etag, trimQuotes_md5Etag laws,
        String.toList_ofList, hexDecode_hexEncode]
      rfl
    refine ⟨?_, ?_⟩
    · rw [List.map_cons, List.map_cons, List.map_cons, ih.1, ← content]
      rfl
    · rw [List.flatMap_cons, List.map_cons, List.flatMap_cons, digest, ih.2]

/-- The request finds its parts when it names the ETags of the latest contents. -/
theorem requestedParts_iff {history : List S3Event} {store : Store}
    (latest : PartsLatest history store) {uploadId : String} :
    ∀ {requested : List (Int × String)},
      (∃ parts, requestedParts store uploadId requested = .ok parts) ↔
        ∀ part ∈ requested, ∃ content, latestContent history uploadId part.1 = some content ∧
          trimQuotes (trim part.2) = trimQuotes (md5Etag content) := by
  intro requested
  induction requested with
  | nil => exact ⟨fun _ _ member => absurd member List.not_mem_nil, fun _ => ⟨[], rfl⟩⟩
  | cons part requested ih =>
    rw [List.forall_mem_cons, ← latest.content]
    constructor
    · rintro ⟨parts, known⟩
      obtain ⟨row, rows, ⟨found, tagged⟩, others, rfl⟩ :=
        List.forall₂_cons_left_iff.mp (requestedParts_ok.mp known)
      refine ⟨⟨row.content, by rw [found]; rfl, ?_⟩, ih.mp ⟨rows, requestedParts_ok.mpr others⟩⟩
      rw [← tagged, (latest.uploaded row (List.mem_of_find?_eq_some found)).etag]
    · rintro ⟨⟨content, here, tagged⟩, rest⟩
      obtain ⟨row, found, rfl⟩ := Option.map_eq_some_iff.mp here
      obtain ⟨rows, others⟩ := ih.mpr rest
      refine ⟨row :: rows, requestedParts_ok.mpr (.cons ⟨found, ?_⟩ (requestedParts_ok.mp others))⟩
      rw [tagged, (latest.uploaded row (List.mem_of_find?_eq_some found)).etag]

/-- What a completion asks for: the upload, a list in ascending order, and the latest ETags. -/
def Completable (history : List S3Event) (store : Store) (bucket key uploadId : String)
    (requested : List (Int × String)) : Prop :=
  (∃ upload ∈ store.uploads, upload.uploadId = uploadId ∧ upload.bucket = bucket ∧
    upload.key = key) ∧
  requested ≠ [] ∧ (requested.Pairwise fun first second => first.1 < second.1) ∧
  ∀ part ∈ requested, ∃ content, latestContent history uploadId part.1 = some content ∧
    trimQuotes (trim part.2) = trimQuotes (md5Etag content)

/-- A completion succeeds just when it can be completed. -/
theorem completeUpload_iff {history : List S3Event} {store : Store} (referenced : Referenced store)
    (latest : PartsLatest history store) {bucket key uploadId : String}
    {requested : List (Int × String)} {now : Int} :
    (∃ pair, completeUpload store bucket key uploadId requested now = .ok pair) ↔
      Completable history store bucket key uploadId requested := by
  constructor
  · rintro ⟨⟨result, after⟩, made⟩
    obtain ⟨some', order, upload, parts, written, here, known, _, _⟩ := completeUpload_ok.mp made
    exact ⟨(uploadRow_iff referenced).mp ⟨upload, here⟩, some', ascending_iff.mp order,
      (requestedParts_iff latest).mp ⟨parts, known⟩⟩
  · rintro ⟨stored, some', order, tagged⟩
    obtain ⟨upload, here⟩ := (uploadRow_iff referenced).mpr stored
    obtain ⟨parts, known⟩ := (requestedParts_iff latest).mpr tagged
    obtain ⟨versioning, configured⟩ : ∃ versioning, versioningOf store bucket = .ok versioning := by
      obtain ⟨_, exists', _⟩ := bind_ok here
      exact ⟨_, ok_bind exists' rfl⟩
    have wrote : ∃ pair, writeObjectTx store bucket key (assembled upload parts) now = .ok pair :=
      ⟨_, ok_bind configured rfl⟩
    obtain ⟨⟨result, written⟩, wrote⟩ := wrote
    exact ⟨_, completeUpload_ok.mpr ⟨some', ascending_iff.mpr order, upload, parts, written, here,
      known, wrote, rfl⟩⟩

/-- What a completion leaves: the object of the parts, and no part of the upload. -/
theorem completeUpload_written (laws : Md5Laws ‹External› md5) {history : List S3Event}
    {store after : Store} (latest : PartsLatest history store) {bucket key uploadId : String}
    {requested : List (Int × String)} {now : Int} {result : WriteResult}
    (made : completeUpload store bucket key uploadId requested now = .ok (result, after)) :
    ∃ (contents : List (List UInt8)) (row : ObjectRow),
      requested.map (fun part => latestContent history uploadId part.1) = contents.map some ∧
      after.objects.find? (fun row => row.isFor bucket key) = some row ∧
      row.content = contents.flatten ∧ row.objMeta.parts = contents.map List.length ∧
      row.size = row.objMeta.parts.sum ∧
      row.etag = "\"" ++ String.ofList (hexEncode (md5 (contents.flatMap md5))) ++ "-" ++
        toString requested.length ++ "\"" ∧
      result.etag = row.etag ∧ result.size = row.size ∧
      after.uploads = store.uploads.filter (fun row => row.uploadId != uploadId) ∧
      after.parts = store.parts.filter fun row => row.uploadId != uploadId := by
  obtain ⟨_, _, upload, parts, written, _, known, wrote, rfl⟩ := completeUpload_ok.mp made
  have named := requestedParts_ok.mp known
  obtain ⟨contents, digests⟩ := requested_latest laws latest named
  obtain ⟨row, others, objects, away, own, named', content, size, etag, sizes, _, resultEtag,
    resultSize⟩ := writeObjectTx_written wrote
  have current : (dropUpload written uploadId).objects.find? (fun row => row.isFor bucket key) =
      some row := by
    change written.objects.find? _ = _
    rw [objects]
    exact find_written away (fun _ found => found) (isFor_iff.mpr ⟨own, named'⟩)
  have moves := (moves_writeObject wrote).2
  have joined : parts.flatMap PartRow.content = (parts.map PartRow.content).flatten :=
    List.flatMap_def ..
  refine ⟨parts.map PartRow.content, row, contents, current, ?_, ?_, ?_, ?_, resultEtag, resultSize,
    ?_, ?_⟩
  · rw [content, ← joined]
    rfl
  · rw [sizes, List.map_map]
    rfl
  · rw [size, sizes]
    change (parts.flatMap PartRow.content).length = _
    rw [List.length_flatMap]
    rfl
  · rw [etag, ← laws, ← digests, named.length_eq]
    rfl
  · rw [← moves.uploads]
    rfl
  · rw [← moves.parts]
    rfl

/-- **Completing an upload.** In every run, a completion succeeds exactly for an upload that exists,
a list of parts in ascending order that is not empty, and the ETags of the latest contents; then
the object is made of these contents, and the upload and its parts are gone. A failure changes
nothing. -/
theorem complete_upload_assembles (laws : Md5Laws ‹External› md5) {history : List S3Event}
    {store : Store} (run : S3Run history store) (now : Int) (bucket key uploadId : String)
    (requested : List (Int × String)) {output : S3Result Response} {after : Store}
    (taken : perform store { now, call := .completeUpload bucket key uploadId requested } =
      (output, after)) :
    ((∃ response, output = .ok response) ↔
      (∃ upload ∈ store.uploads, upload.uploadId = uploadId ∧ upload.bucket = bucket ∧
        upload.key = key) ∧
      requested ≠ [] ∧ (requested.Pairwise fun first second => first.1 < second.1) ∧
      ∀ part ∈ requested, ∃ content, latestContent history uploadId part.1 = some content ∧
        trimQuotes (trim part.2) = trimQuotes (md5Etag content)) ∧
    (∀ response, output = .ok response → ∃ (result : WriteResult) (contents : List (List UInt8)) (row : ObjectRow),
      response = .written result ∧
      requested.map (fun part => latestContent history uploadId part.1) = contents.map some ∧
      after.objects.find? (fun row => row.isFor bucket key) = some row ∧
      row.content = contents.flatten ∧ row.objMeta.parts = contents.map List.length ∧
      row.size = row.objMeta.parts.sum ∧
      row.etag = "\"" ++ String.ofList (hexEncode (md5 (contents.flatMap md5))) ++ "-" ++
        toString requested.length ++ "\"" ∧
      result.etag = row.etag ∧ result.size = row.size ∧
      after.uploads = store.uploads.filter (fun row => row.uploadId != uploadId) ∧
      after.parts = store.parts.filter fun row => row.uploadId != uploadId) ∧
    ∀ error, output = .error error → after = store := by
  have latest := parts_run run
  have completable : (∃ pair, completeUpload store bucket key uploadId requested now = .ok pair) ↔
      Completable history store bucket key uploadId requested :=
    completeUpload_iff (referenced_run run).1 latest
  cases made : completeUpload store bucket key uploadId requested now with
  | error error =>
    have fails : execute store { now, call := .completeUpload bucket key uploadId requested } =
        .error error := by
      unfold execute
      simp only [made]
      rfl
    obtain ⟨rfl, rfl⟩ := Prod.mk.inj (taken.symm.trans (commit_error fails))
    refine ⟨⟨fun success => ?_, fun conditions => ?_⟩, fun _ success => (by cases success),
      fun _ _ => rfl⟩
    · obtain ⟨_, success⟩ := success
      cases success
    · obtain ⟨pair, completed⟩ := completable.mpr conditions
      rw [completed] at made
      cases made
  | ok pair =>
    obtain ⟨result, stop⟩ := pair
    have succeeds : execute store { now, call := .completeUpload bucket key uploadId requested } =
        .ok (.written result, stop) := by
      unfold execute
      simp only [made]
      rfl
    obtain ⟨rfl, rfl⟩ := Prod.mk.inj (taken.symm.trans (commit_ok succeeds))
    refine ⟨⟨fun _ => completable.mp ⟨_, made⟩, fun _ => ⟨_, rfl⟩⟩, ?_, fun _ failed => by cases failed⟩
    intro response same
    cases same
    obtain ⟨contents, row, written⟩ := completeUpload_written laws latest made
    exact ⟨result, contents, row, rfl, written⟩

end External

section Sample

def helloDigest : List UInt8 :=
  [0x5d, 0x41, 0x40, 0x2a, 0xbc, 0x4b, 0x2a, 0x76,
    0xb9, 0x71, 0x9d, 0x91, 0x10, 0x17, 0xc5, 0x92]

def emptyDigest : List UInt8 :=
  [0xd4, 0x1d, 0x8c, 0xd9, 0x8f, 0x00, 0xb2, 0x04,
    0xe9, 0x80, 0x09, 0x98, 0xec, 0xf8, 0x42, 0x7e]

def worldDigest : List UInt8 :=
  [0x7d, 0x79, 0x30, 0x37, 0xa0, 0x76, 0x01, 0x86,
    0x57, 0x4b, 0x02, 0x82, 0xf2, 0xf4, 0x35, 0xe7]

/-- MD5, on the texts of the samples. -/
def sampleMd5 (content : List UInt8) : List UInt8 :=
  if content = utf8 "hello" then helloDigest
  else if content = utf8 "world" then worldDigest
  else if content = [] then emptyDigest
  else if content = helloDigest ++ worldDigest then
    [0x06, 0x59, 0x47, 0x33, 0x6a, 0x2f, 0x2a, 0x95,
    0xba, 0x88, 0x99, 0xf3, 0x67, 0x5c, 0x3b, 0xe6]
  else if content = helloDigest ++ emptyDigest then
    [0xa1, 0x69, 0xf9, 0x25, 0x5c, 0xc3, 0x0b, 0xf5,
    0x61, 0x98, 0xc6, 0x4a, 0xe2, 0xa0, 0x98, 0x32]
  else []

/-- Crates that know these digests. -/
@[reducible]
def multipartCrates : External where
  jsonFromStr _ := none
  jsonToString _ := "null"
  sha256Hex _ := ""
  md5Hex content := String.ofList (hexEncode (sampleMd5 content))
  parsesF64 _ := false
  uuid := External.sample.uuid

attribute [local instance] multipartCrates S3External.sample

/-- An upload of two parts, the first of which was uploaded twice. -/
def sampleUpload : List Call :=
  [.createBucket "b", .createUpload "b" "k" "text/plain" ObjMeta.default [],
    .uploadPart "b" "k" (simpleUuid (External.uuid 0)) 1 [] ObjMeta.default,
    .uploadPart "b" "k" (simpleUuid (External.uuid 0)) 2 (utf8 "world") ObjMeta.default,
    .uploadPart "b" "k" (simpleUuid (External.uuid 0)) 1 (utf8 "hello") ObjMeta.default]

def sampleParts : List (Int × String) :=
  [(1, "\"5d41402abc4b2a76b9719d911017c592\""), (2, "7d793037a0760186574b0282f2f435e7")]

def sampleCompletion : Input where
  now := 0
  call := .completeUpload "b" "k" (simpleUuid (External.uuid 0)) sampleParts

def sampleUploaded : Store :=
  Run.final perform Store.empty (sampleInputs sampleUpload)

/-- The parts are listed with the ETags of their latest contents. -/
theorem complete_upload_assembles_sample :
    ∃ row, (perform sampleUploaded sampleCompletion).2.objects.find?
        (fun row => row.isFor "b" "k") = some row ∧
      row.content = utf8 "helloworld" ∧ row.etag = "\"065947336a2f2a95ba8899f3675c3be6-2\"" := by
  obtain ⟨succeeds, made, _⟩ := @complete_upload_assembles multipartCrates S3External.sample sampleMd5
    (fun _ => rfl) _ sampleUploaded (Run.of_trace perform (sampleInputs sampleUpload) Store.empty) 0
    "b" "k" (simpleUuid (External.uuid 0)) sampleParts
    (perform sampleUploaded sampleCompletion).1 (perform sampleUploaded sampleCompletion).2 rfl
  have first : latestContent (Run.trace perform Store.empty (sampleInputs sampleUpload))
      (simpleUuid (External.uuid 0)) 1 = some (utf8 "hello") := by decide
  have second : latestContent (Run.trace perform Store.empty (sampleInputs sampleUpload))
      (simpleUuid (External.uuid 0)) 2 = some (utf8 "world") := by decide
  have uploaded : ∃ upload ∈ sampleUploaded.uploads, upload.uploadId = simpleUuid (External.uuid 0) ∧
      upload.bucket = "b" ∧ upload.key = "k" :=
    ⟨_, List.mem_cons_self .., by decide, by decide, by decide⟩
  obtain ⟨response, done⟩ := succeeds.mpr ⟨uploaded, by decide, by decide, by
    intro part member
    rcases List.mem_pair.mp member with rfl | rfl
    · exact ⟨utf8 "hello", first, by decide⟩
    · exact ⟨utf8 "world", second, by decide⟩⟩
  obtain ⟨_, contents, row, _, listed, current, content, _, _, etag, _⟩ := made response done
  have both : contents = [utf8 "hello", utf8 "world"] := by
    have same : [some (utf8 "hello"), some (utf8 "world")] = contents.map some := by
      rw [← listed, ← first, ← second]
      rfl
    exact List.map_injective_iff.mpr (Option.some_injective _) same.symm
  subst both
  refine ⟨row, current, ?_, ?_⟩
  · rw [content]
    decide
  · rw [etag]
    decide

end Sample

end CloudTwin.S3
