/-
**Cloud Storage buckets and objects** (`gcp/storage/service.rs`, `gcp/storage/models.rs`).

An object has no counter: its generation is the time of its last overwrite in microseconds. A write or
a delete may ask for a generation, `0` for an object that does not exist.

* `checkGeneration` — the precondition; `uploadObject`, `patchObject`, `deleteObject`.
* `transaction`, `perform` — one call, which is one transaction on the store.
* `uploadObject_ok`, `deleteObject_ok` — when a call succeeds, and what it leaves.
-/

import CloudTwin.External
import CloudTwin.Lib.Transaction

namespace CloudTwin.Gcs

open Lib

set_option linter.unusedSectionVars false

/-! ### Data -/

structure GcsBucket where
  name : String
  project : String
  location : String
  createdAt : Int

structure GcsObject where
  bucket : String
  name : String
  content : List UInt8
  contentType : String
  size : Nat
  etag : String
  /-- In microseconds: the text that is stored has six decimals. -/
  createdAt : Int
  props : Json

/-- Creation time of the current generation. -/
def GcsObject.generation (object : GcsObject) : Int :=
  object.createdAt

/-- The clock in microseconds; it reads nanoseconds. -/
def nowTs (now : Int) : Int :=
  now / 1000

inductive GcsError where
  | bucketNotFound (name : String)
  | bucketExists (name : String)
  | bucketNotEmpty (name : String)
  | objectNotFound (bucket name : String)
  | preconditionFailed (what : String)

abbrev GcsResult := Except GcsError

/-- `gcs_buckets` and `gcs_objects`. -/
structure GcsStore where
  project : String
  buckets : List GcsBucket
  objects : List GcsObject

def GcsStore.empty (project : String) : GcsStore where
  project := project
  buckets := []
  objects := []

/-! ### Properties -/

def objectProps : List String :=
  ["metadata", "cacheControl", "contentEncoding", "contentDisposition", "contentLanguage",
    "customTime"]

/-- The members of an object, none for any other value. -/
def membersOf : Json → List (String × Json)
  | .obj members => members
  | _ => []

def removeMember (members : List (String × Json)) (key : String) : List (String × Json) :=
  members.filter fun member => member.1 != key

/-- `Map::insert`: the members stay in key order. -/
def insertMember (members : List (String × Json)) (key : String) (value : Json) :
    List (String × Json) :=
  let others := removeMember members key
  others.filter (fun member => decide (member.1 < key)) ++
    (key, value) :: others.filter fun member => decide (key < member.1)

def isNull : Json → Bool
  | .null => true
  | _ => false

def mergeMember (members : List (String × Json)) (update : String × Json) : List (String × Json) :=
  if isNull update.2 then removeMember members update.1
  else insertMember members update.1 update.2

/-- The `metadata` member: its keys are merged. -/
def mergeMetadata (members : List (String × Json)) (value : Json) : List (String × Json) :=
  match (members.lookup "metadata").getD (.obj []), value with
  | .obj current, .obj updates =>
    insertMember members "metadata" (.obj (updates.foldl mergeMember current))
  | stored, value =>
    if isNull value then removeMember members "metadata"
    else insertMember members "metadata" stored

/-- Apply the stored-property subset of a metadata or patch document. -/
def mergeProps (props patch : Json) : Json :=
  .obj <| objectProps.foldl (fun members key =>
    match patch.get key with
    | none => members
    | some value =>
      if key = "metadata" then mergeMetadata members value
      else mergeMember members (key, value)) (membersOf props)

section External

variable [External]

/-! ### Calls -/

def bucketExists (store : GcsStore) (name : String) : Bool :=
  store.buckets.any fun bucket => bucket.name == name

def GcsObject.isAt (object : GcsObject) (bucket name : String) : Bool :=
  object.bucket == bucket && object.name == name

def loadObject (store : GcsStore) (bucket name : String) : Option GcsObject :=
  store.objects.find? fun object => object.isAt bucket name

/-- Check an `ifGenerationMatch` precondition (`0` means "must not exist"). -/
def checkGeneration (existing : Option GcsObject) (want : Option Int) (what : String) :
    GcsResult Unit :=
  match want with
  | none => .ok ()
  | some generation =>
    if generation = 0 ∧ existing.isNone then .ok ()
    else if existing.map GcsObject.generation = some generation then .ok ()
    else .error (.preconditionFailed what)

def createBucket (store : GcsStore) (name : String) (location : Option String) (now : Int) :
    GcsResult (GcsBucket × GcsStore) := do
  let bucket : GcsBucket :=
    { name, project := store.project, location := (location.getD "US").toUpper
      createdAt := nowTs now }
  rejectIf (bucketExists store name) (GcsError.bucketExists name)
  return (bucket, { store with buckets := store.buckets ++ [bucket] })

def getBucket (store : GcsStore) (name : String) : GcsResult GcsBucket :=
  okOr (store.buckets.find? fun bucket => bucket.name == name) (.bucketNotFound name)

/-- Delete an empty bucket. -/
def deleteBucket (store : GcsStore) (name : String) : GcsResult GcsStore := do
  rejectIf (bucketExists store name = false) (GcsError.bucketNotFound name)
  rejectIf (store.objects.any fun object => object.bucket == name) (GcsError.bucketNotEmpty name)
  return { store with buckets := store.buckets.filter fun bucket => bucket.name != name }

/-- The row goes in, or over the one of its name. -/
def putRow (store : GcsStore) (object : GcsObject) : GcsStore :=
  { store with objects := (store.objects.filter fun other =>
      !other.isAt object.bucket object.name) ++ [object] }

/-- Create or overwrite an object. -/
def uploadObject (store : GcsStore) (bucket name : String) (content : List UInt8)
    (contentType : String) (props : Json) (ifGenerationMatch : Option Int) (now : Int) :
    GcsResult (GcsObject × GcsStore) := do
  let object : GcsObject :=
    { bucket, name, etag := External.md5Hex content, size := content.length, content, contentType
      createdAt := nowTs now, props }
  rejectIf (bucketExists store bucket = false) (GcsError.bucketNotFound bucket)
  checkGeneration (loadObject store bucket name) ifGenerationMatch name
  return (object, putRow store object)

def getObject (store : GcsStore) (bucket name : String) : GcsResult GcsObject := do
  rejectIf (bucketExists store bucket = false) (GcsError.bucketNotFound bucket)
  okOr (loadObject store bucket name) (.objectNotFound bucket name)

/-- Update mutable object properties. -/
def patchObject (store : GcsStore) (bucket name : String) (patch : Json) :
    GcsResult (GcsObject × GcsStore) := do
  rejectIf (bucketExists store bucket = false) (GcsError.bucketNotFound bucket)
  let stored ← okOr (loadObject store bucket name) (GcsError.objectNotFound bucket name)
  let contentType := ((patch.get "contentType").bind Json.asStr).getD stored.contentType
  let object := { stored with contentType, props := mergeProps stored.props patch }
  return (object, putRow store object)

def dropRow (store : GcsStore) (bucket name : String) : GcsStore :=
  { store with objects := store.objects.filter fun object => !object.isAt bucket name }

def deleteObject (store : GcsStore) (bucket name : String) (ifGenerationMatch : Option Int) :
    GcsResult GcsStore := do
  rejectIf (bucketExists store bucket = false) (GcsError.bucketNotFound bucket)
  let stored ← okOr (loadObject store bucket name) (GcsError.objectNotFound bucket name)
  checkGeneration (some stored) ifGenerationMatch name
  return dropRow store bucket name

/-! ### One call -/

inductive GcsCall where
  | createBucket (name : String) (location : Option String)
  | getBucket (name : String)
  | deleteBucket (name : String)
  | uploadObject (bucket name : String) (content : List UInt8) (contentType : String) (props : Json)
      (ifGenerationMatch : Option Int)
  | getObject (bucket name : String)
  | patchObject (bucket name : String) (patch : Json)
  | deleteObject (bucket name : String) (ifGenerationMatch : Option Int)

inductive GcsResponse where
  | done
  | bucket (bucket : GcsBucket)
  | object (object : GcsObject)

structure GcsInput where
  now : Int
  call : GcsCall

def transaction (store : GcsStore) (input : GcsInput) : GcsResult (GcsResponse × GcsStore) :=
  match input.call with
  | .createBucket name location => do
    let (bucket, after) ← createBucket store name location input.now
    return (.bucket bucket, after)
  | .getBucket name => do
    let bucket ← getBucket store name
    return (.bucket bucket, store)
  | .deleteBucket name => do
    let after ← deleteBucket store name
    return (.done, after)
  | .uploadObject bucket name content contentType props ifGenerationMatch => do
    let (object, after) ←
      uploadObject store bucket name content contentType props ifGenerationMatch input.now
    return (.object object, after)
  | .getObject bucket name => do
    let object ← getObject store bucket name
    return (.object object, store)
  | .patchObject bucket name patch => do
    let (object, after) ← patchObject store bucket name patch
    return (.object object, after)
  | .deleteObject bucket name ifGenerationMatch => do
    let after ← deleteObject store bucket name ifGenerationMatch
    return (.done, after)

def perform : GcsStore → GcsInput → GcsResult GcsResponse × GcsStore :=
  commit transaction

abbrev GcsEvent := Event GcsStore GcsInput (GcsResult GcsResponse)

abbrev GcsRun (project : String) : List GcsEvent → GcsStore → Prop :=
  Run perform (GcsStore.empty project)

/-! ### The generation of an object -/

/-- The generation that a client reads. -/
def generationOf (store : GcsStore) (bucket name : String) : Option Int :=
  (loadObject store bucket name).map GcsObject.generation

theorem isAt_iff {object : GcsObject} {bucket name : String} :
    object.isAt bucket name = true ↔ object.bucket = bucket ∧ object.name = name := by
  rw [GcsObject.isAt, Bool.and_eq_true, beq_iff_eq, beq_iff_eq]

/-- An object that was loaded is the one asked for. -/
theorem loadObject_isAt {store : GcsStore} {bucket name : String} {object : GcsObject}
    (loaded : loadObject store bucket name = some object) :
    object ∈ store.objects ∧ object.bucket = bucket ∧ object.name = name := by
  unfold loadObject at loaded
  have found := List.find?_some loaded
  exact ⟨List.mem_of_find?_eq_some loaded, isAt_iff.mp found⟩

theorem find?_filter_away {objects : List GcsObject} {bucket name other otherName : String}
    (away : ¬ (other = bucket ∧ otherName = name)) :
    (objects.filter fun object => !object.isAt bucket name).find?
        (fun object => object.isAt other otherName) =
      objects.find? fun object => object.isAt other otherName := by
  rw [List.find?_filter]
  refine congrArg (fun test => objects.find? test) (funext fun object => ?_)
  by_cases here : object.isAt other otherName = true
  · have elsewhere : object.isAt bucket name = false :=
      Bool.eq_false_iff.mpr fun both => away
        ⟨(isAt_iff.mp here).1.symm.trans (isAt_iff.mp both).1,
          (isAt_iff.mp here).2.symm.trans (isAt_iff.mp both).2⟩
    simp [here, elsewhere]
  · simp [here]

theorem loadObject_putRow (store : GcsStore) (object : GcsObject) (bucket name : String) :
    loadObject (putRow store object) bucket name =
      if bucket = object.bucket ∧ name = object.name then some object
      else loadObject store bucket name := by
  unfold loadObject putRow
  rw [List.find?_append]
  by_cases own : bucket = object.bucket ∧ name = object.name
  · obtain ⟨rfl, rfl⟩ := own
    have gone : (store.objects.filter fun other => !other.isAt object.bucket object.name).find?
        (fun other => other.isAt object.bucket object.name) = none :=
      List.find?_eq_none.mpr fun other member here => by
        simp [here] at member
    have here : object.isAt object.bucket object.name = true := isAt_iff.mpr ⟨rfl, rfl⟩
    simp only [gone, Option.none_or, List.find?_cons, here, and_self, if_true]
  · have elsewhere : object.isAt bucket name = false :=
      Bool.eq_false_iff.mpr fun here => own
        ⟨(isAt_iff.mp here).1.symm, (isAt_iff.mp here).2.symm⟩
    simp only [find?_filter_away own, List.find?_cons, elsewhere, List.find?_nil, Option.or_none,
      if_neg own]

theorem loadObject_dropRow (store : GcsStore) (bucket name other otherName : String) :
    loadObject (dropRow store bucket name) other otherName =
      if other = bucket ∧ otherName = name then none else loadObject store other otherName := by
  unfold loadObject dropRow
  by_cases own : other = bucket ∧ otherName = name
  · obtain ⟨rfl, rfl⟩ := own
    rw [if_pos ⟨rfl, rfl⟩]
    exact List.find?_eq_none.mpr fun object member here => by
      simp [here] at member
  · rw [if_neg own]
    exact find?_filter_away own

/-- Whether the check passes depends on the generation that is there. -/
theorem checkGeneration_ok {existing : Option GcsObject} {want : Option Int} {what : String}
    {value : Unit} : checkGeneration existing want what = .ok value ↔
      ∀ generation, want = some generation →
        (generation = 0 ∧ existing = none) ∨
          existing.map GcsObject.generation = some generation := by
  unfold checkGeneration
  cases want with
  | none => simp
  | some generation =>
    simp only [Option.isNone_iff_eq_none]
    split
    · rename_i free
      exact ⟨fun _ _ same => Option.some.inj same ▸ Or.inl free, fun _ => rfl⟩
    · rename_i taken
      split
      · rename_i matched
        exact ⟨fun _ _ same => Option.some.inj same ▸ Or.inr matched, fun _ => rfl⟩
      · rename_i differs
        refine ⟨nofun, fun passes => ?_⟩
        rcases passes generation rfl with free | matched
        · exact absurd free taken
        · exact absurd matched differs

/-- **When a write succeeds, and what it leaves.** -/
theorem uploadObject_ok {store : GcsStore} {bucket name contentType : String} {content : List UInt8}
    {props : Json} {want : Option Int} {now : Int} {result : GcsObject × GcsStore} :
    uploadObject store bucket name content contentType props want now = .ok result ↔
      bucketExists store bucket = true ∧
      checkGeneration (loadObject store bucket name) want name = .ok () ∧
      result = ({ bucket, name, etag := External.md5Hex content, size := content.length, content
                  contentType, createdAt := nowTs now, props },
        putRow store { bucket, name, etag := External.md5Hex content, size := content.length, content
                       contentType, createdAt := nowTs now, props }) := by
  constructor
  · intro done
    obtain ⟨_, there, done⟩ := bind_ok done
    obtain ⟨_, checked, done⟩ := bind_ok done
    cases done
    exact ⟨Bool.eq_true_of_not_eq_false (rejectIf_ok.mp there), checked, rfl⟩
  · rintro ⟨there, checked, rfl⟩
    refine ok_bind (rejectIf_pass fun missing => ?_) (ok_bind checked rfl)
    rw [there] at missing
    cases missing

/-- **When a delete succeeds, and what it leaves.** -/
theorem deleteObject_ok {store after : GcsStore} {bucket name : String} {want : Option Int} :
    deleteObject store bucket name want = .ok after ↔
      bucketExists store bucket = true ∧ ∃ stored, loadObject store bucket name = some stored ∧
      checkGeneration (some stored) want name = .ok () ∧ after = dropRow store bucket name := by
  constructor
  · intro done
    obtain ⟨_, there, done⟩ := bind_ok done
    obtain ⟨stored, loaded, done⟩ := bind_ok done
    obtain ⟨_, checked, done⟩ := bind_ok done
    cases done
    exact ⟨Bool.eq_true_of_not_eq_false (rejectIf_ok.mp there), stored, okOr_ok.mp loaded, checked,
      rfl⟩
  · rintro ⟨there, stored, loaded, checked, rfl⟩
    refine ok_bind (rejectIf_pass fun missing => ?_) (ok_bind (okOr_ok.mpr loaded)
      (ok_bind checked rfl))
    rw [there] at missing
    cases missing

theorem patchObject_ok {store after : GcsStore} {bucket name : String} {patch : Json}
    {object : GcsObject} (done : patchObject store bucket name patch = .ok (object, after)) :
    bucketExists store bucket = true ∧ ∃ stored, loadObject store bucket name = some stored ∧
      object.bucket = bucket ∧ object.name = name ∧ object.generation = stored.generation ∧
      after = putRow store object := by
  obtain ⟨_, there, done⟩ := bind_ok done
  obtain ⟨stored, loaded, done⟩ := bind_ok done
  cases done
  have found := okOr_ok.mp loaded
  obtain ⟨_, inBucket, named⟩ := loadObject_isAt found
  exact ⟨Bool.eq_true_of_not_eq_false (rejectIf_ok.mp there), stored, found, inBucket, named, rfl,
    rfl⟩

end External

end CloudTwin.Gcs
