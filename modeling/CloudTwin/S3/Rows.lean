/-
**The rows of a key.**

What the writes of the service do to the current object of a key, and to its archived versions.

* `current_addObject` — the current object after a version was displaced and another one written.
* `visible_putObject` — what a PutObject changes of what requests without a version id see.
-/

import CloudTwin.S3.Requests
import CloudTwin.Lib.Table

namespace CloudTwin.S3

open Lib

set_option linter.unusedSectionVars false

theorem hexValue_digitChar : ∀ digit < 16, hexValue (Nat.digitChar digit) = some digit := by
  decide

theorem isFor_iff {row : ObjectRow} {bucket key : String} :
    row.isFor bucket key = true ↔ row.bucket = bucket ∧ row.key = key := by
  unfold ObjectRow.isFor
  rw [Bool.and_eq_true, beq_iff_eq, beq_iff_eq]

theorem isVersion_iff {row : ObjectRow} {bucket key versionId : String} :
    row.isVersion bucket key versionId = true ↔
      (row.bucket = bucket ∧ row.key = key) ∧ row.versionId = versionId := by
  unfold ObjectRow.isVersion
  rw [Bool.and_eq_true, isFor_iff, beq_iff_eq]

section External

variable [External] [S3External]

theorem requireBucket_ok {store : Store} {bucket : String} {value : Unit}
    (done : requireBucket store bucket = .ok value) : bucket ∈ store.buckets := by
  unfold requireBucket at done
  rw [rejectIf_ok, Bool.not_eq_false] at done
  simpa [bucketExists] using done

theorem versioningOf_ok {store : Store} {bucket : String} {versioning : Versioning}
    (done : versioningOf store bucket = .ok versioning) :
    bucket ∈ store.buckets ∧
      versioning = Versioning.parse ((configGet store bucket "versioning").getD "") := by
  obtain ⟨_, here, rest⟩ := bind_ok done
  cases rest
  exact ⟨requireBucket_ok here, rfl⟩

/-! ### The current object -/

theorem currentInfo_none {store : Store} {bucket key : String} :
    currentInfo store bucket key = none ↔ ∀ row ∈ store.objects, row.isFor bucket key = false := by
  unfold currentInfo
  rw [Option.map_eq_none_iff, List.find?_eq_none]
  simp

/-- Whatever was current is not after it was displaced. -/
theorem displace_objects (store : Store) (bucket key versionId : String) (replaces : Bool) :
    (displace store bucket key versionId replaces).objects =
      store.objects.filter fun row => !row.isFor bucket key := by
  unfold displace
  cases found : currentInfo store bucket key with
  | none =>
    symm
    rw [List.filter_eq_self]
    intro row member
    simpa using currentInfo_none.mp found row member
  | some info =>
    dsimp only
    split <;> rfl

theorem dropNull_objects (store : Store) (bucket key versionId : String) :
    (dropNull store bucket key versionId).objects = store.objects := by
  unfold dropNull
  split <;> rfl

/-- **The current object after a write.** -/
theorem current_addObject {store : Store} {row : ObjectRow} {rows : List ObjectRow}
    (objects : store.objects = rows.filter fun old => !old.isFor row.bucket row.key)
    (bucket key : String) :
    currentInfo (addObject store row) bucket key =
      if row.bucket = bucket ∧ row.key = key then
        some { infoFromRow row false with isLatest := true }
      else ((rows.find? fun old => old.isFor bucket key).map fun old =>
        { infoFromRow old false with isLatest := true }) := by
  unfold currentInfo addObject
  simp only [objects, List.find?_append]
  by_cases same : row.bucket = bucket ∧ row.key = key
  · have none : (rows.filter fun old => !old.isFor row.bucket row.key).find?
        (fun old => old.isFor bucket key) = none := by
      rw [List.find?_eq_none]
      intro old member
      have other := (List.mem_filter.mp member).2
      rw [← same.1, ← same.2]
      simpa using other
    rw [none, if_pos same]
    simp [isFor_iff.mpr same]
  · have kept : (rows.filter fun old => !old.isFor row.bucket row.key).find?
        (fun old => old.isFor bucket key) = rows.find? fun old => old.isFor bucket key := by
      refine find_filter_same fun old _ here => ?_
      rw [Bool.not_eq_true', Bool.eq_false_iff]
      intro own
      obtain ⟨inBucket, named⟩ := isFor_iff.mp own
      obtain ⟨inOther, namedOther⟩ := isFor_iff.mp here
      exact same ⟨inBucket.symm.trans inOther, named.symm.trans namedOther⟩
    have absent : row.isFor bucket key = false := by
      rw [Bool.eq_false_iff]
      exact fun own => same (isFor_iff.mp own)
    rw [kept, if_neg same]
    simp [absent]

/-- What a request without a version id sees: the current object of a bucket that exists. -/
def visible (store : Store) (bucket key : String) : Option ObjectInfo :=
  if bucket ∈ store.buckets then currentInfo store bucket key else none

theorem resolveVersion_visible {store : Store} {bucket key : String} {info : ObjectInfo} :
    resolveVersion store bucket key none = .ok info ↔ visible store bucket key = some info := by
  unfold resolveVersion visible requireBucket rejectIf
  by_cases here : bucket ∈ store.buckets
  · have found : bucketExists store bucket = true := by simpa [bucketExists] using here
    rw [if_pos here, found]
    cases current : currentInfo store bucket key with
    | some info => simp [bind, Except.bind]
    | none =>
      simp only [Bool.true_eq_false, if_false, reduceCtorEq, iff_false]
      intro done
      simp only [bind, Except.bind] at done
      split at done
      · split at done <;> cases done
      · cases done
  · have missing : bucketExists store bucket = false := by simpa [bucketExists] using here
    rw [if_neg here, missing]
    simp [bind, Except.bind]

theorem addObject_buckets (store : Store) (row : ObjectRow) :
    (addObject store row).buckets = store.buckets := rfl

theorem room_buckets (store : Store) (bucket key versionId : String) (replaces : Bool) :
    (dropNull (displace store bucket key versionId replaces) bucket key versionId).buckets =
      store.buckets := by
  unfold dropNull displace
  repeat' split
  all_goals rfl

/-- **What a write stores.** -/
theorem writeObjectTx_ok {store after : Store} {bucket key : String} {obj : NewObject} {now : Int}
    {result : WriteResult} (done : writeObjectTx store bucket key obj now = .ok (result, after)) :
    ∃ versioning row, versioningOf store bucket = .ok versioning ∧
      (row.bucket = bucket ∧ row.key = key ∧ row.versionId = versionIdFor store versioning ∧
        row.seq = store.seq + 1 ∧ row.etag = obj.etag) ∧
      after = addObject (dropNull (displace (drawOne (nextSeq store)) bucket key
        (versionIdFor store versioning) (versioning == .unversioned)) bucket key
          (versionIdFor store versioning)) row := by
  obtain ⟨versioning, here, rest⟩ := bind_ok done
  cases rest
  exact ⟨versioning, _, here, ⟨rfl, rfl, rfl, rfl, rfl⟩, rfl⟩

/-- **What a PutObject changes of what is visible**: its own key. -/
theorem visible_putObject {store after : Store} {bucket key contentType : String}
    {content : List UInt8} {objMeta : ObjMeta} {tags : Tags} {now : Int} {result : WriteResult}
    (done : putObject store bucket key content contentType objMeta tags now = .ok (result, after)) :
    ∃ info : ObjectInfo, info.etag = md5Etag content ∧ ∀ otherBucket otherKey,
      visible after otherBucket otherKey =
        if bucket = otherBucket ∧ key = otherKey then some info
        else visible store otherBucket otherKey := by
  obtain ⟨versioning, row, here, ⟨rfl, rfl, _, _, etag⟩, rfl⟩ := writeObjectTx_ok done
  have stored := (versioningOf_ok here).1
  refine ⟨{ infoFromRow row false with isLatest := true }, etag, fun otherBucket otherKey => ?_⟩
  unfold visible
  rw [current_addObject ((dropNull_objects _ _ _ _).trans (displace_objects _ _ _ _ _)),
    addObject_buckets, room_buckets]
  by_cases same : row.bucket = otherBucket ∧ row.key = otherKey
  · rw [if_pos same, if_pos same, ← same.1]
    exact if_pos stored
  · rw [if_neg same, if_neg same]
    rfl

end External

end CloudTwin.S3
