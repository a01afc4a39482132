/-
**Rows belong to a bucket or to an upload that exists.**

A call that inserts a row checks in the same call that its bucket (for a part, its upload) exists,
and a bucket is deleted only without objects and versions, together with its configurations and
uploads. So whatever the requests do between their calls, no row outlives its bucket.

* `Referenced` — the invariant.
* `Moves` — what writing and deleting objects does, as far as the invariant is concerned.
* `referenced_run` — in every run, every row belongs to a bucket or upload that exists, and a bucket
  that is created starts empty.
-/

import CloudTwin.S3.Rows

namespace CloudTwin.S3

open Lib

set_option linter.unusedSectionVars false

/-- **Every row belongs to a bucket, and every part to an upload, that exists.** -/
structure Referenced (store : Store) : Prop where
  objects : ∀ row ∈ store.objects, row.bucket ∈ store.buckets
  versions : ∀ row ∈ store.versions, row.bucket ∈ store.buckets
  configs : ∀ row ∈ store.configs, row.bucket ∈ store.buckets
  uploads : ∀ upload ∈ store.uploads, upload.bucket ∈ store.buckets
  parts : ∀ part ∈ store.parts, ∃ upload ∈ store.uploads, upload.uploadId = part.uploadId

/-- No row belongs to the bucket. -/
structure Unused (store : Store) (bucket : String) : Prop where
  objects : ∀ row ∈ store.objects, row.bucket ≠ bucket
  versions : ∀ row ∈ store.versions, row.bucket ≠ bucket
  configs : ∀ row ∈ store.configs, row.bucket ≠ bucket
  uploads : ∀ upload ∈ store.uploads, upload.bucket ≠ bucket

theorem Referenced.unused {store : Store} (referenced : Referenced store) {bucket : String}
    (absent : bucket ∉ store.buckets) : Unused store bucket where
  objects row member same := absent (same ▸ referenced.objects row member)
  versions row member same := absent (same ▸ referenced.versions row member)
  configs row member same := absent (same ▸ referenced.configs row member)
  uploads row member same := absent (same ▸ referenced.uploads row member)

/-! ### Objects and versions -/

/-- **Objects and versions come and go in one bucket**, and the other tables stay as they are. -/
structure Moves (bucket : String) (before after : Store) : Prop where
  buckets : after.buckets = before.buckets
  configs : after.configs = before.configs
  uploads : after.uploads = before.uploads
  parts : after.parts = before.parts
  objects : ∀ row ∈ after.objects, row.bucket = bucket ∨
    ∃ old ∈ before.objects, old.bucket = row.bucket
  versions : ∀ row ∈ after.versions, row.bucket = bucket ∨
    ∃ old ∈ before.versions, old.bucket = row.bucket

namespace Moves

variable {bucket : String} {before middle after : Store}

/-- Rows that were there, or belong to the bucket. -/
theorem of_rows (buckets : after.buckets = before.buckets) (configs : after.configs = before.configs)
    (uploads : after.uploads = before.uploads) (parts : after.parts = before.parts)
    (objects : ∀ row ∈ after.objects, row.bucket = bucket ∨ row ∈ before.objects)
    (versions : ∀ row ∈ after.versions, row.bucket = bucket ∨ row ∈ before.versions) :
    Moves bucket before after where
  buckets := buckets
  configs := configs
  uploads := uploads
  parts := parts
  objects row member := (objects row member).imp_right fun old => ⟨row, old, rfl⟩
  versions row member := (versions row member).imp_right fun old => ⟨row, old, rfl⟩

theorem refl (bucket : String) (store : Store) : Moves bucket store store :=
  of_rows rfl rfl rfl rfl (fun _ member => Or.inr member) fun _ member => Or.inr member

theorem trans (first : Moves bucket before middle) (second : Moves bucket middle after) :
    Moves bucket before after where
  buckets := second.buckets.trans first.buckets
  configs := second.configs.trans first.configs
  uploads := second.uploads.trans first.uploads
  parts := second.parts.trans first.parts
  objects row member := by
    rcases second.objects row member with own | ⟨old, memberOld, same⟩
    · exact Or.inl own
    · rw [← same]
      exact first.objects old memberOld
  versions row member := by
    rcases second.versions row member with own | ⟨old, memberOld, same⟩
    · exact Or.inl own
    · rw [← same]
      exact first.versions old memberOld

/-- What is kept where objects and versions move in a bucket that exists. -/
theorem referenced (moves : Moves bucket before after) (referenced : Referenced before)
    (stored : bucket ∈ before.buckets) : Referenced after where
  objects row member := by
    rw [moves.buckets]
    rcases moves.objects row member with rfl | ⟨old, memberOld, same⟩
    · exact stored
    · rw [← same]
      exact referenced.objects old memberOld
  versions row member := by
    rw [moves.buckets]
    rcases moves.versions row member with rfl | ⟨old, memberOld, same⟩
    · exact stored
    · rw [← same]
      exact referenced.versions old memberOld
  configs := by
    rw [moves.configs, moves.buckets]
    exact referenced.configs
  uploads := by
    rw [moves.uploads, moves.buckets]
    exact referenced.uploads
  parts := by
    rw [moves.parts, moves.uploads]
    exact referenced.parts

end Moves

section External

variable [External] [S3External]

theorem moves_dropCurrent (store : Store) (bucket key : String) :
    Moves bucket store (dropCurrent store bucket key) :=
  Moves.of_rows rfl rfl rfl rfl (fun _ member => Or.inr (List.mem_filter.mp member).1)
    fun _ member => Or.inr member

theorem moves_dropVersion (store : Store) (bucket key versionId : String) :
    Moves bucket store (dropVersion store bucket key versionId) :=
  Moves.of_rows rfl rfl rfl rfl (fun _ member => Or.inr member)
    fun _ member => Or.inr (List.mem_filter.mp member).1

theorem moves_archiveCurrent (store : Store) (bucket key : String) :
    Moves bucket store (archiveCurrent store bucket key) := by
  refine Moves.of_rows rfl rfl rfl rfl (fun _ member => Or.inr (List.mem_filter.mp member).1)
    fun row member => ?_
  rcases List.mem_append.mp member with old | moved
  · exact Or.inr (List.mem_filter.mp old).1
  · obtain ⟨current, memberCurrent, rfl⟩ := List.mem_map.mp moved
    exact Or.inl (isFor_iff.mp (List.mem_filter.mp memberCurrent).2).1

theorem moves_restoreLatest (store : Store) (bucket key : String) :
    Moves bucket store (restoreLatest store bucket key) := by
  unfold restoreLatest
  cases latestArchived store bucket key with
  | none => exact Moves.refl bucket store
  | some latest =>
    have archived : Moves bucket store (if (currentInfo store bucket key).isSome then
        archiveCurrent store bucket key else store) := by
      split
      · exact moves_archiveCurrent store bucket key
      · exact Moves.refl bucket store
    simp only
    split
    · exact Moves.refl bucket store
    · split
      · exact archived
      · refine archived.trans (Moves.trans ?_ (moves_dropVersion _ bucket key latest.versionId))
        refine Moves.of_rows rfl rfl rfl rfl (fun row member => ?_) fun _ member => Or.inr member
        rcases List.mem_append.mp member with old | restored
        · exact Or.inr old
        · obtain ⟨version, memberVersion, rfl⟩ := List.mem_map.mp restored
          exact Or.inl (isVersion_iff.mp (List.mem_filter.mp memberVersion).2).1.1

theorem moves_displace (store : Store) (bucket key versionId : String) (replaces : Bool) :
    Moves bucket store (displace store bucket key versionId replaces) := by
  unfold displace
  split
  · exact Moves.refl bucket store
  · split
    · exact moves_dropCurrent store bucket key
    · exact moves_archiveCurrent store bucket key

theorem moves_dropNull (store : Store) (bucket key versionId : String) :
    Moves bucket store (dropNull store bucket key versionId) := by
  unfold dropNull
  split
  · exact moves_dropVersion store bucket key "null"
  · exact Moves.refl bucket store

/-- The versions that a new version takes the place of. -/
theorem moves_room (store : Store) (bucket key versionId : String) (replaces : Bool) :
    Moves bucket store
      (dropNull (displace store bucket key versionId replaces) bucket key versionId) :=
  (moves_displace store bucket key versionId replaces).trans (moves_dropNull _ bucket key versionId)

/-- Counting writes moves nothing. -/
theorem moves_nextSeq (bucket : String) (store : Store) : Moves bucket store (nextSeq store) :=
  Moves.of_rows rfl rfl rfl rfl (fun _ member => Or.inr member) fun _ member => Or.inr member

theorem moves_drawOne (bucket : String) (store : Store) : Moves bucket store (drawOne store) :=
  Moves.of_rows rfl rfl rfl rfl (fun _ member => Or.inr member) fun _ member => Or.inr member

theorem moves_addObject {bucket : String} (store : Store) {row : ObjectRow}
    (own : row.bucket = bucket) : Moves bucket store (addObject store row) := by
  refine Moves.of_rows rfl rfl rfl rfl (fun other member => ?_) fun _ member => Or.inr member
  rcases List.mem_append.mp member with old | new
  · exact Or.inr old
  · rw [List.mem_singleton.mp new]
    exact Or.inl own

theorem moves_addVersion {bucket : String} (store : Store) {row : VersionRow}
    (own : row.bucket = bucket) : Moves bucket store (addVersion store row) := by
  refine Moves.of_rows rfl rfl rfl rfl (fun _ member => Or.inr member) fun other member => ?_
  rcases List.mem_append.mp member with old | new
  · exact Or.inr old
  · rw [List.mem_singleton.mp new]
    exact Or.inl own

theorem moves_writeObject {store after : Store} {bucket key : String} {obj : NewObject} {now : Int}
    {result : WriteResult} (done : writeObjectTx store bucket key obj now = .ok (result, after)) :
    bucket ∈ store.buckets ∧ Moves bucket store after := by
  obtain ⟨versioning, here, rest⟩ := bind_ok done
  cases rest
  have counted := (moves_nextSeq bucket store).trans (moves_drawOne bucket _)
  exact ⟨(versioningOf_ok here).1,
    counted.trans ((moves_room _ bucket key _ _).trans (moves_addObject _ rfl))⟩

theorem moves_deleteVersion (store : Store) (bucket key versionId : String)
    (versioning : Versioning) :
    Moves bucket store (deleteVersion store bucket key versionId versioning).2 := by
  refine Moves.trans ?_ (moves_nextSeq bucket _)
  split
  · exact (moves_dropCurrent store bucket key).trans (moves_restoreLatest _ bucket key)
  · split
    · exact (moves_dropVersion store bucket key versionId).trans (moves_restoreLatest _ bucket key)
    · exact Moves.refl bucket store

theorem moves_markDeleted (store : Store) (bucket key : String) (versioning : Versioning)
    (now : Int) : Moves bucket store (markDeleted store bucket key versioning now).2 := by
  exact (moves_drawOne bucket store).trans ((moves_room _ bucket key _ _).trans
    ((moves_nextSeq bucket _).trans (moves_addVersion _ rfl)))

theorem moves_deleteObject {store after : Store} {bucket key : String} {versionId : Option String}
    {now : Int} {outcome : DeleteOutcome}
    (done : deleteObject store bucket key versionId now = .ok (outcome, after)) :
    bucket ∈ store.buckets ∧ Moves bucket store after := by
  obtain ⟨versioning, here, rest⟩ := bind_ok done
  refine ⟨(versioningOf_ok here).1, ?_⟩
  cases versionId with
  | some versionId =>
    have same := congrArg Prod.snd (Except.ok.inj rest)
    rw [← show _ = after from same]
    exact moves_deleteVersion store bucket key versionId versioning
  | none =>
    simp only at rest
    split at rest
    · cases rest
      exact (moves_dropCurrent store bucket key).trans (moves_nextSeq bucket _)
    · have same := congrArg Prod.snd (Except.ok.inj rest)
      rw [← show _ = after from same]
      exact moves_markDeleted store bucket key versioning now

theorem moves_setObjectTags {store after : Store} {bucket key : String} {versionId : Option String}
    {tags : Tags} {info : ObjectInfo}
    (done : setObjectTags store bucket key versionId tags = .ok (info, after)) :
    Moves bucket store after := by
  obtain ⟨_, _, rest⟩ := bind_ok done
  cases rest
  refine ⟨rfl, rfl, rfl, rfl, fun row member => ?_, fun row member => ?_⟩
  · obtain ⟨old, memberOld, rfl⟩ := List.mem_map.mp member
    refine Or.inr ⟨old, memberOld, ?_⟩
    split <;> rfl
  · obtain ⟨old, memberOld, rfl⟩ := List.mem_map.mp member
    refine Or.inr ⟨old, memberOld, ?_⟩
    split <;> rfl

/-! ### Calls -/

theorem uploadRow_ok {store : Store} {bucket key uploadId : String} {upload : Upload}
    (done : uploadRow store bucket key uploadId = .ok upload) :
    bucket ∈ store.buckets ∧ upload ∈ store.uploads ∧ upload.uploadId = uploadId := by
  obtain ⟨_, here, rest⟩ := bind_ok done
  rw [okOr_ok] at rest
  have named := List.find?_some rest
  simp only [Bool.and_eq_true, beq_iff_eq] at named
  exact ⟨requireBucket_ok here, List.mem_of_find?_eq_some rest, named.1.1⟩

theorem referenced_dropUpload {store : Store} (referenced : Referenced store) (uploadId : String) :
    Referenced (dropUpload store uploadId) where
  objects := referenced.objects
  versions := referenced.versions
  configs := referenced.configs
  uploads row member := referenced.uploads row (List.mem_filter.mp member).1
  parts part member := by
    obtain ⟨stored, other⟩ := List.mem_filter.mp member
    obtain ⟨upload, memberUpload, same⟩ := referenced.parts part stored
    exact ⟨upload, List.mem_filter.mpr ⟨memberUpload, same ▸ other⟩, same⟩

theorem referenced_createBucket {store : Store} (referenced : Referenced store) (name : String) :
    Referenced (createBucket store name).2 := by
  unfold createBucket
  split
  · exact referenced
  · exact ⟨fun row member => List.mem_append_left _ (referenced.objects row member),
      fun row member => List.mem_append_left _ (referenced.versions row member),
      fun row member => List.mem_append_left _ (referenced.configs row member),
      fun row member => List.mem_append_left _ (referenced.uploads row member), referenced.parts⟩

theorem referenced_deleteBucket {store after : Store} {name : String}
    (referenced : Referenced store) (done : deleteBucket store name = .ok after) :
    Referenced after := by
  obtain ⟨_, _, rest⟩ := bind_ok done
  obtain ⟨_, empty, rest⟩ := bind_ok rest
  cases rest
  rw [rejectIf_ok, gt_iff_lt, not_lt, Nat.le_zero, Nat.add_eq_zero_iff, List.length_eq_zero_iff,
    List.length_eq_zero_iff, List.filter_eq_nil_iff, List.filter_eq_nil_iff] at empty
  have stays : ∀ {bucket : String}, bucket ∈ store.buckets → bucket ≠ name →
      bucket ∈ store.buckets.filter fun row => row != name :=
    fun member other => List.mem_filter.mpr ⟨member, by simpa using other⟩
  refine ⟨fun row member => stays (referenced.objects row member) ?_,
    fun row member => stays (referenced.versions row member) ?_, fun row member => ?_,
    fun row member => ?_, fun part member => ?_⟩
  · simpa using empty.1 row member
  · simpa using empty.2 row member
  · obtain ⟨stored, other⟩ := List.mem_filter.mp member
    exact stays (referenced.configs row stored) (by simpa using other)
  · obtain ⟨stored, other⟩ := List.mem_filter.mp member
    exact stays (referenced.uploads row stored) (by simpa using other)
  · obtain ⟨stored, other⟩ := List.mem_filter.mp member
    obtain ⟨upload, memberUpload, same⟩ := referenced.parts part stored
    refine ⟨upload, List.mem_filter.mpr ⟨memberUpload, ?_⟩, same⟩
    rw [Bool.not_eq_true', List.any_eq_false] at other
    simpa [same] using other upload memberUpload

theorem referenced_putConfig {store after : Store} {bucket kind body : String}
    (referenced : Referenced store) (done : putConfig store bucket kind body = .ok after) :
    Referenced after := by
  obtain ⟨_, here, rest⟩ := bind_ok done
  cases rest
  refine ⟨referenced.objects, referenced.versions, fun row member => ?_, referenced.uploads,
    referenced.parts⟩
  show row.bucket ∈ store.buckets
  dsimp only at member
  split at member
  · obtain ⟨old, memberOld, rfl⟩ := List.mem_map.mp member
    split
    · exact referenced.configs old memberOld
    · exact referenced.configs old memberOld
  · rcases List.mem_append.mp member with old | new
    · exact referenced.configs row old
    · rw [List.mem_singleton.mp new]
      exact requireBucket_ok here

/-- **Every call keeps the references.** -/
theorem referenced_execute {store after : Store} {input : Input} {response : Response}
    (referenced : Referenced store) (done : execute store input = .ok (response, after)) :
    Referenced after := by
  unfold execute at done
  cases call : input.call with
  | createBucket name =>
    simp only [call] at done
    cases done
    exact referenced_createBucket referenced name
  | deleteBucket name =>
    simp only [call] at done
    exact referenced_deleteBucket referenced (noAnswer_ok done).1
  | putConfig bucket kind body =>
    simp only [call] at done
    exact referenced_putConfig referenced (noAnswer_ok done).1
  | deleteConfig bucket kind =>
    simp only [call] at done
    obtain ⟨_, _, rest⟩ := bind_ok (noAnswer_ok done).1
    cases rest
    exact ⟨referenced.objects, referenced.versions,
      fun row member => referenced.configs row (List.mem_filter.mp member).1, referenced.uploads,
      referenced.parts⟩
  | objectInfo bucket key versionId =>
    simp only [call] at done
    cases found : resolveVersion store bucket key versionId with
    | error error => rw [found] at done; cases done
    | ok info => rw [found] at done; cases done; exact referenced
  | writeObject bucket key obj =>
    simp only [call] at done
    obtain ⟨_, made, _⟩ := answerWith_ok done
    obtain ⟨stored, moves⟩ := moves_writeObject made
    exact moves.referenced referenced stored
  | deleteObject bucket key versionId =>
    simp only [call] at done
    obtain ⟨_, made, _⟩ := answerWith_ok done
    obtain ⟨stored, moves⟩ := moves_deleteObject made
    exact moves.referenced referenced stored
  | setObjectTags bucket key versionId tags =>
    simp only [call] at done
    obtain ⟨_, made, _⟩ := answerWith_ok done
    obtain ⟨_, found, _⟩ := bind_ok made
    obtain ⟨_, here, _⟩ := bind_ok found
    exact (moves_setObjectTags made).referenced referenced (requireBucket_ok here)
  | createUpload bucket key contentType objMeta tags =>
    simp only [call] at done
    obtain ⟨_, made, _⟩ := answerWith_ok done
    obtain ⟨_, here, rest⟩ := bind_ok made
    cases rest
    refine ⟨referenced.objects, referenced.versions, referenced.configs, fun row member => ?_,
      fun part member => ?_⟩
    · rcases List.mem_append.mp member with old | new
      · exact referenced.uploads row old
      · rw [List.mem_singleton.mp new]
        exact requireBucket_ok here
    · obtain ⟨upload, memberUpload, same⟩ := referenced.parts part member
      exact ⟨upload, List.mem_append_left _ memberUpload, same⟩
  | uploadPart bucket key uploadId partNumber content objMeta =>
    simp only [call] at done
    obtain ⟨_, made, _⟩ := answerWith_ok done
    obtain ⟨_, _, rest⟩ := bind_ok made
    obtain ⟨upload, found, rest⟩ := bind_ok rest
    cases rest
    obtain ⟨_, memberUpload, same⟩ := uploadRow_ok found
    refine ⟨referenced.objects, referenced.versions, referenced.configs, referenced.uploads,
      fun part member => ?_⟩
    rcases List.mem_append.mp member with old | new
    · exact referenced.parts part (List.mem_filter.mp old).1
    · rw [List.mem_singleton.mp new]
      exact ⟨upload, memberUpload, same⟩
  | completeUpload bucket key uploadId requested =>
    simp only [call] at done
    obtain ⟨_, made, _⟩ := answerWith_ok done
    obtain ⟨_, _, rest⟩ := bind_ok made
    obtain ⟨_, _, rest⟩ := bind_ok rest
    obtain ⟨_, _, rest⟩ := bind_ok rest
    obtain ⟨_, _, rest⟩ := bind_ok rest
    obtain ⟨⟨_, written⟩, wrote, rest⟩ := bind_ok rest
    cases rest
    obtain ⟨stored, moves⟩ := moves_writeObject wrote
    exact referenced_dropUpload (moves.referenced referenced stored) uploadId
  | abortUpload bucket key uploadId =>
    simp only [call] at done
    obtain ⟨_, _, rest⟩ := bind_ok (noAnswer_ok done).1
    cases rest
    exact referenced_dropUpload referenced uploadId

/-- A bucket that is created did not exist. -/
theorem bucket_created {event : S3Event} {name : String} (taken : event.Taken perform)
    (call : event.input.call = .createBucket name) (created : event.output = .ok (.bucket true)) :
    name ∉ event.before.buckets ∧
      event.after = { event.before with buckets := event.before.buckets ++ [name] } := by
  have done := taken_ok taken created
  unfold execute at done
  simp only [call] at done
  obtain ⟨fresh, after⟩ := Prod.mk.inj (Except.ok.inj done)
  unfold createBucket at fresh after
  split at fresh
  · cases fresh
  · rename_i absent
    rw [if_neg absent] at after
    exact ⟨by simpa [bucketExists] using absent, after.symm⟩

/-- **Referential integrity.** In every run, every object, version, configuration and upload
belongs to a bucket that exists and every part to an upload that exists; and a bucket that is
created starts without any of them. -/
theorem referenced_run {history : List S3Event} {store : Store} (run : S3Run history store) :
    Referenced store ∧ ∀ event ∈ history, ∀ name, event.input.call = .createBucket name →
      event.output = .ok (.bucket true) → Unused event.after name := by
  have initial : Referenced Store.empty := ⟨nofun, nofun, nofun, nofun, nofun⟩
  have preserved : ∀ event : S3Event, event.Taken perform → Referenced event.before →
      Referenced event.after := by
    intro event taken before
    rcases taken_commit taken with ⟨_, _, same⟩ | ⟨_, _, done⟩
    · rw [same]
      exact before
    · exact referenced_execute before done
  refine ⟨run.invariant initial preserved, fun event member name call created => ?_⟩
  obtain ⟨absent, after⟩ := bucket_created (run.taken_of_mem event member) call created
  have unused := (run.invariant_before initial preserved event member).unused absent
  rw [after]
  exact ⟨unused.objects, unused.versions, unused.configs, unused.uploads⟩

end External

section Sample

attribute [local instance] External.sample S3External.sample

/-- A bucket with a configuration and an upload with a part, deleted and created again. -/
def sampleRecreated : List Call :=
  [.createBucket "bucket", .putConfig "bucket" "versioning" "Enabled",
    .createUpload "bucket" "key" "text/plain" ObjMeta.default [],
    .uploadPart "bucket" "key" (simpleUuid (External.uuid 0)) 1 [] ObjMeta.default,
    .deleteBucket "bucket", .createBucket "bucket"]

/-- The bucket is created again without its configuration and its upload. -/
theorem referenced_run_sample :
    Referenced (sampleStore sampleRecreated) ∧
      Unused (sampleStore sampleRecreated) "bucket" := by
  obtain ⟨referenced, empty⟩ :=
    referenced_run (Run.of_trace perform (sampleInputs sampleRecreated) Store.empty)
  exact ⟨referenced, empty (Event.of perform (sampleStore (sampleRecreated.take 5))
    { now := 0, call := .createBucket "bucket" }) (List.mem_of_getElem? (i := 5) rfl) "bucket" rfl
    rfl⟩

end Sample

end CloudTwin.S3
