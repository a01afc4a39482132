/-
**The Blob store** (`azure/blob/service.rs`, and the requests of `azure/blob/handlers.rs`).

Containers and blobs are two tables without a foreign key between them. A request is one call, but for
the creation of a container, which looks at it again to answer, and a listing, which looks for the
container first; the calls of other requests come between.

* `BlobStore`, `BlobTask.work` — the tables, and the calls on them.
* `Drive`, `driveStep`, `view` — what the tables are for: containers that hold blobs, where a blob needs
  its container, a deletion of the container takes its blobs, and a blob keeps the time of its first
  write.
* `call_effect`, `call_tells` — one call does its effect, and answers what the drive holds.
* `blobs_serial` — every run is a serial run of the drive; no blob is without its container; and a write
  that asked for a new blob never follows another write of it without a deletion in between.
-/

import CloudTwin.Azure.Listing
import CloudTwin.External
import CloudTwin.Lib.Keyed
import CloudTwin.Lib.Serial
import CloudTwin.Lib.Tasks

namespace CloudTwin.Azure

open Lib Lib.Text

set_option linter.unusedSectionVars false

/-! ### The tables -/

structure AzureContainer where
  name : String
  account : String
  createdAt : String

/-- The account and the name of a container. -/
abbrev Place := String × String

def AzureContainer.place (container : AzureContainer) : Place :=
  (container.account, container.name)

/-- The container of a blob, and its name. -/
def AzureBlob.key (blob : AzureBlob) : Place × String :=
  ((blob.account, blob.container), blob.name)

structure BlobStore where
  containers : Keyed AzureContainer.place
  blobs : Keyed AzureBlob.key

def BlobStore.empty : BlobStore := ⟨Keyed.empty, Keyed.empty⟩

/-- The rows of a container, which is what its listing reads. -/
def BlobStore.blobsIn (store : BlobStore) (place : Place) : Blobs where
  rows := store.blobs.rows.filter fun blob => decide (blob.key.1 = place)
  distinct := by
    have kept : (store.blobs.rows.filter fun blob => decide (blob.key.1 = place)).Sublist
        store.blobs.rows := List.filter_sublist
    have names := (kept.map AzureBlob.key).nodup store.blobs.unique
    rw [List.nodup_iff_pairwise_ne, List.pairwise_map] at names ⊢
    refine names.imp_of_mem fun {first second} one two apart same => apart ?_
    have here := of_decide_eq_true (List.mem_filter.mp one).2
    have there := of_decide_eq_true (List.mem_filter.mp two).2
    exact Prod.ext (here.trans there.symm) same

section External

variable [External]

def computeEtag (data : List UInt8) : String :=
  "\"" ++ External.md5Hex data ++ "\""

/-! ### Writes -/

inductive PutOutcome where
  | stored (blob : AzureBlob)
  | containerNotFound
  | alreadyExists

/-- The row of a new blob. -/
def newBlob (key : Place × String) (content : List UInt8) (contentType now : String) : AzureBlob where
  container := key.1.2
  account := key.1.1
  name := key.2
  content := content
  contentType := contentType
  size := content.length
  etag := computeEtag content
  createdAt := now

/-- `DO UPDATE SET`: all but the key and the time of the first write. -/
def overwritten (content : List UInt8) (contentType : String) (old : AzureBlob) : AzureBlob :=
  { old with
    content := content
    contentType := contentType
    size := content.length
    etag := computeEtag content }

theorem overwritten_key {content : List UInt8} {contentType : String} (old : AzureBlob) :
    (overwritten content contentType old).key = old.key := rfl

/-- A row as the metadata calls read it. -/
def AzureBlob.metadata (blob : AzureBlob) : AzureBlob :=
  { blob with content := [] }

/-- `put_blob`. -/
def putBlob (now : String) (key : Place × String) (content : List UInt8) (contentType : String)
    (ifNoneMatchAny : Bool) (store : BlobStore) : PutOutcome × BlobStore :=
  match store.containers.find key.1 with
  | none => (.containerNotFound, store)
  | some _ =>
    match store.blobs.find key with
    | some old =>
      if ifNoneMatchAny then (.alreadyExists, store)
      else (.stored (overwritten content contentType old).metadata, { store with
        blobs := store.blobs.modify key (overwritten content contentType) overwritten_key })
    | none => (.stored (newBlob key content contentType now).metadata, { store with
        blobs := store.blobs.insert (newBlob key content contentType now) })

/-- `delete_container`: the container, and its blobs. -/
def deleteContainer (place : Place) (store : BlobStore) : BlobStore where
  containers := store.containers.erase place
  blobs := store.blobs.remove fun key => key.1 == place

/-! ### Requests -/

/-- The headers that a write reads. -/
structure PutHeaders where
  blobType : Option String
  blobContentType : Option String
  contentType : Option String
  ifNoneMatch : Option String

inductive BlobRequest where
  | containerPut (place : Place)
  | containerDelete (place : Place)
  | containerList (place : Place) (params : ListParams)
  | put (key : Place × String) (content : List UInt8) (headers : PutHeaders)
  | get (key : Place × String) (ifMatch ifNoneMatch : Option String)
  | delete (key : Place × String)

/-- What a request does next. -/
inductive BlobTask where
  | createContainer (place : Place)
  | reread (place : Place)
  | deleteContainer (place : Place)
  | openListing (place : Place) (params : ListParams)
  | list (place : Place) (params : ListParams)
  | refuseType
  | put (key : Place × String) (content : List UInt8) (contentType : String) (ifNoneMatchAny : Bool)
  | get (key : Place × String) (ifMatch ifNoneMatch : Option String)
  | delete (key : Place × String)

inductive BlobReply where
  | containerCreated (container : AzureContainer)
  | containerAlreadyExists
  | containerNotFound
  | containerDeleted
  | listed (page : List Listed) (next : String)
  | invalidBlobType
  | stored (etag lastModified : String)
  | blobAlreadyExists
  | blobNotFound
  | conditionNotMet
  | notModified (etag : String)
  | blob (blob : AzureBlob)
  | blobDeleted
  | internal

def PutHeaders.type (headers : PutHeaders) : String :=
  (headers.blobContentType.or headers.contentType).getD "application/octet-stream"

def beginTask : BlobRequest → BlobTask
  | .containerPut place => .createContainer place
  | .containerDelete place => .deleteContainer place
  | .containerList place params => .openListing place params
  | .put key content headers =>
    if headers.blobType = none ∨ headers.blobType = some "BlockBlob" then
      .put key content headers.type (headers.ifNoneMatch == some "*")
    else .refuseType
  | .get key ifMatch ifNoneMatch => .get key ifMatch ifNoneMatch
  | .delete key => .delete key

/-- `read_conditions`: `some` aborts the read. -/
def readConditions (ifMatch ifNoneMatch : Option String) (blob : AzureBlob) : Option BlobReply :=
  if ifMatch ≠ none ∧ ifMatch ≠ some "*" ∧ ifMatch ≠ some blob.etag then some .conditionNotMet
  else if ifNoneMatch = some "*" ∨ ifNoneMatch = some blob.etag then some (.notModified blob.etag)
  else none

/-- A call of the database that went through. -/
def BlobTask.work (now : String) : BlobTask → BlobStore → Progress BlobTask BlobReply × BlobStore
  | .createContainer place, store =>
    match store.containers.find place with
    | some _ => (.ends .containerAlreadyExists, store)
    | none => (.continues (.reread place), { store with
        containers := store.containers.insert ⟨place.2, place.1, now⟩ })
  | .reread place, store =>
    match store.containers.find place with
    | some container => (.ends (.containerCreated container), store)
    | none => (.ends .containerNotFound, store)
  | .deleteContainer place, store =>
    match store.containers.find place with
    | some _ => (.ends .containerDeleted, Azure.deleteContainer place store)
    | none => (.ends .containerNotFound, Azure.deleteContainer place store)
  | .openListing place params, store =>
    match store.containers.find place with
    | some _ => (.continues (.list place params), store)
    | none => (.ends .containerNotFound, store)
  | .list place params, store =>
    let page := listBlobs ((store.blobsIn place).rows.map AzureBlob.metadata) params
    (.ends (.listed page.1 page.2), store)
  | .refuseType, store => (.ends .invalidBlobType, store)
  | .put key content contentType ifNoneMatchAny, store =>
    match putBlob now key content contentType ifNoneMatchAny store with
    | (.stored blob, after) => (.ends (.stored blob.etag blob.createdAt), after)
    | (.containerNotFound, after) => (.ends .containerNotFound, after)
    | (.alreadyExists, after) => (.ends .blobAlreadyExists, after)
  | .get key ifMatch ifNoneMatch, store =>
    match store.blobs.find key with
    | some blob => (.ends ((readConditions ifMatch ifNoneMatch blob).getD (.blob blob)), store)
    | none => (.ends .blobNotFound, store)
  | .delete key, store =>
    match store.blobs.find key with
    | some _ => (.ends .blobDeleted, { store with blobs := store.blobs.erase key })
    | none => (.ends .blobNotFound, { store with blobs := store.blobs.erase key })

/-- What a call meets: the clock, and whether the database fails. -/
structure BlobCall where
  now : String
  fails : Bool

/-- **One call.** -/
def BlobTask.run (call : BlobCall) (task : BlobTask) (store : BlobStore) :
    Progress BlobTask BlobReply × BlobStore :=
  if call.fails then (.ends .internal, store) else task.work call.now store

/-! ### The drive -/

/-- What is held under the key of a blob. -/
structure Held where
  content : List UInt8
  contentType : String
  since : String

/-- The containers with their times, and the blobs. -/
@[ext]
structure Drive where
  container : Place → Option String
  blob : Place × String → Option Held

def Drive.empty : Drive := ⟨fun _ => none, fun _ => none⟩

inductive DriveOperation where
  | create (place : Place) (now : String)
  | drop (place : Place)
  | write (key : Place × String) (content : List UInt8) (contentType now : String) (onlyNew : Bool)
  | erase (key : Place × String)

/-- A container is created where there is none and dropped where there is one, with all that it holds; a
blob is written into a container that is there, and over another one only if the write allows it. -/
def driveStep (drive : Drive) : DriveOperation → Bool × Drive
  | .create place now => ((drive.container place).isNone,
      { drive with container := Function.update drive.container place (some now) })
  | .drop place => ((drive.container place).isSome, {
      container := Function.update drive.container place none
      blob := fun key => if key.1 = place then none else drive.blob key })
  | .write key content contentType now onlyNew =>
    ((drive.container key.1).isSome && !(onlyNew && (drive.blob key).isSome), { drive with
      blob := Function.update drive.blob key
        (some ⟨content, contentType, ((drive.blob key).map Held.since).getD now⟩) })
  | .erase key => ((drive.blob key).isSome,
      { drive with blob := Function.update drive.blob key none })

def AzureBlob.held (blob : AzureBlob) : Held :=
  ⟨blob.content, blob.contentType, blob.createdAt⟩

/-- The drive that the tables stand for. -/
def view (store : BlobStore) : Drive where
  container place := (store.containers.find place).map AzureContainer.createdAt
  blob key := (store.blobs.find key).map AzureBlob.held

/-- The effect of a call. -/
def BlobTask.effect (call : BlobCall) (task : BlobTask) (store : BlobStore) : Option DriveOperation :=
  if call.fails then none
  else
    match task with
    | .createContainer place =>
      if (store.containers.find place).isNone then some (.create place call.now) else none
    | .deleteContainer place =>
      if (store.containers.find place).isSome then some (.drop place) else none
    | .put key content contentType ifNoneMatchAny =>
      if (store.containers.find key.1).isSome && !(ifNoneMatchAny && (store.blobs.find key).isSome) then
        some (.write key content contentType call.now ifNoneMatchAny)
      else none
    | .delete key => if (store.blobs.find key).isSome then some (.erase key) else none
    | _ => none

/-- A blob is in a container that is there. -/
def Drive.Housed (drive : Drive) : Prop :=
  ∀ key, (drive.blob key).isSome → (drive.container key.1).isSome

/-- The size and the tag of a row are those of its content. -/
def Tagged (store : BlobStore) : Prop :=
  ∀ blob ∈ store.blobs.rows, blob.size = blob.content.length ∧ blob.etag = computeEtag blob.content

/-! ### What the calls do to the drive -/

theorem view_create {store : BlobStore} {place : Place} (now : String)
    (absent : store.containers.find place = none) :
    view { store with containers := store.containers.insert ⟨place.2, place.1, now⟩ } =
      { view store with container := Function.update (view store).container place (some now) } := by
  refine Drive.ext (funext fun other => ?_) rfl
  show ((store.containers.insert ⟨place.2, place.1, now⟩).find other).map AzureContainer.createdAt = _
  rw [Keyed.find_insert (⟨place.2, place.1, now⟩ : AzureContainer) absent]
  exact congrFun (Keyed.map_update _ _ _ _) other

theorem view_deleteContainer (store : BlobStore) (place : Place) :
    view (deleteContainer place store) = {
      container := Function.update (view store).container place none
      blob := fun key => if key.1 = place then none else (view store).blob key } := by
  refine Drive.ext (funext fun other => ?_) (funext fun key => ?_)
  · show ((store.containers.erase place).find other).map AzureContainer.createdAt = _
    rw [Keyed.find_erase]
    exact congrFun (Keyed.map_update _ _ _ _) other
  · show ((store.blobs.remove fun key => key.1 == place).find key).map AzureBlob.held = _
    rw [Keyed.find_remove]
    by_cases same : key.1 = place
    · simp [same]
    · simp [same, view]

/-- Without blobs in it, a container that is not there is dropped without an effect. -/
theorem view_dropped {store : BlobStore} {place : Place} (housed : (view store).Housed)
    (absent : store.containers.find place = none) : view (deleteContainer place store) = view store := by
  have away : (view store).container place = none := by
    show (store.containers.find place).map _ = none
    rw [absent]
    rfl
  rw [view_deleteContainer]
  refine Drive.ext ?_ (funext fun key => ?_)
  · show Function.update (view store).container place none = (view store).container
    rw [← away, Function.update_eq_self]
  · show (if key.1 = place then none else (view store).blob key) = (view store).blob key
    split
    · rename_i same
      cases held : (view store).blob key with
      | none => rfl
      | some old =>
        have there := housed key (by rw [held]; rfl)
        rw [same, away] at there
        cases there
    · rfl

theorem view_new {store : BlobStore} {key : Place × String} (content : List UInt8)
    (contentType now : String) (absent : store.blobs.find key = none) :
    view { store with blobs := store.blobs.insert (newBlob key content contentType now) } =
      { view store with blob := Function.update (view store).blob key (some ⟨content, contentType, now⟩) } := by
  refine Drive.ext rfl (funext fun other => ?_)
  show ((store.blobs.insert (newBlob key content contentType now)).find other).map AzureBlob.held = _
  rw [Keyed.find_insert (newBlob key content contentType now) absent]
  exact congrFun (Keyed.map_update _ _ _ _) other

theorem view_overwritten {store : BlobStore} {key : Place × String} {old : AzureBlob}
    (content : List UInt8) (contentType : String) (found : store.blobs.find key = some old) :
    view { store with
        blobs := store.blobs.modify key (overwritten content contentType) overwritten_key } =
      { view store with
        blob := Function.update (view store).blob key (some ⟨content, contentType, old.createdAt⟩) } := by
  refine Drive.ext rfl (funext fun other => ?_)
  show ((store.blobs.modify key (overwritten content contentType) overwritten_key).find other).map
    AzureBlob.held = _
  rw [Keyed.find_modify store.blobs overwritten_key found]
  exact congrFun (Keyed.map_update _ _ _ _) other

theorem view_erase (store : BlobStore) (key : Place × String) :
    view { store with blobs := store.blobs.erase key } =
      { view store with blob := Function.update (view store).blob key none } := by
  refine Drive.ext rfl (funext fun other => ?_)
  show ((store.blobs.erase key).find other).map AzureBlob.held = _
  rw [Keyed.find_erase]
  exact congrFun (Keyed.map_update _ _ _ _) other

theorem view_container_none {store : BlobStore} {place : Place} (absent : store.containers.find place = none) :
    (view store).container place = none := by
  show (store.containers.find place).map _ = none
  rw [absent]
  rfl

theorem view_container_some {store : BlobStore} {place : Place} {container : AzureContainer}
    (found : store.containers.find place = some container) :
    (view store).container place = some container.createdAt := by
  show (store.containers.find place).map _ = _
  rw [found]
  rfl

theorem view_blob_none {store : BlobStore} {key : Place × String} (absent : store.blobs.find key = none) :
    (view store).blob key = none := by
  show (store.blobs.find key).map _ = none
  rw [absent]
  rfl

theorem view_blob_some {store : BlobStore} {key : Place × String} {blob : AzureBlob}
    (found : store.blobs.find key = some blob) : (view store).blob key = some blob.held := by
  show (store.blobs.find key).map _ = _
  rw [found]
  rfl

/-- **What a write can be**: refused for its container or for the blob that is there, or done. -/
theorem putBlob_cases (now : String) (key : Place × String) (content : List UInt8) (contentType : String)
    (ifNoneMatchAny : Bool) (store : BlobStore) :
    (store.containers.find key.1 = none ∧
      putBlob now key content contentType ifNoneMatchAny store = (.containerNotFound, store)) ∨
    (∃ container old, store.containers.find key.1 = some container ∧ store.blobs.find key = some old ∧
      ifNoneMatchAny = true ∧
      putBlob now key content contentType ifNoneMatchAny store = (.alreadyExists, store)) ∨
    ∃ container blob after, store.containers.find key.1 = some container ∧
      (ifNoneMatchAny && (store.blobs.find key).isSome) = false ∧
      putBlob now key content contentType ifNoneMatchAny store = (.stored blob, after) ∧
      blob.etag = computeEtag content ∧
      blob.createdAt = (((view store).blob key).map Held.since).getD now ∧
      view after = ⟨(view store).container, Function.update (view store).blob key
        (some ⟨content, contentType, (((view store).blob key).map Held.since).getD now⟩)⟩ ∧
      (Tagged store → Tagged after) := by
  unfold putBlob
  cases home : store.containers.find key.1 with
  | none => exact Or.inl ⟨rfl, rfl⟩
  | some container =>
    refine Or.inr ?_
    cases found : store.blobs.find key with
    | none =>
      refine Or.inr ⟨container, _, _, rfl, by simp, rfl, rfl, ?_, ?_, fun tagged blob member => ?_⟩
      · rw [view_blob_none found]
        rfl
      · rw [view_new content contentType now found, view_blob_none found]
        rfl
      · have rows := Keyed.rows_insert (newBlob key content contentType now) found
        rw [rows] at member
        rcases List.mem_append.mp member with earlier | new
        · exact tagged blob earlier
        · rw [List.mem_singleton.mp new]
          exact ⟨rfl, rfl⟩
    | some old =>
      cases ifNoneMatchAny with
      | true => exact Or.inl ⟨container, old, rfl, rfl, rfl, rfl⟩
      | false =>
        refine Or.inr ⟨container, _, _, rfl, by simp, rfl, rfl, ?_, ?_, fun tagged blob member => ?_⟩
        · rw [view_blob_some found]
          rfl
        · rw [view_overwritten content contentType found, view_blob_some found]
          rfl
        · obtain ⟨was, inside, rfl⟩ := List.mem_map.mp member
          unfold Keyed.changed
          split
          · exact ⟨rfl, rfl⟩
          · exact tagged was inside

/-- **What one call does to the drive.** -/
theorem call_effect (call : BlobCall) (task : BlobTask) {store : BlobStore} (housed : (view store).Housed) :
    match task.effect call store with
    | none => view (task.run call store).2 = view store
    | some operation => driveStep (view store) operation = (true, view (task.run call store).2) := by
  unfold BlobTask.effect BlobTask.run
  cases call.fails with
  | true => rfl
  | false =>
    simp only [Bool.false_eq_true, if_false]
    cases task with
    | createContainer place =>
      cases found : store.containers.find place with
      | none =>
        simp only [found, Option.isNone_none, if_true, BlobTask.work]
        rw [view_create call.now found]
        show ((view store).container place |>.isNone, _) = _
        rw [view_container_none found]
        rfl
      | some container => simp only [found, Option.isNone_some, Bool.false_eq_true, if_false, BlobTask.work]
    | reread place =>
      simp only [BlobTask.work]
      split <;> rfl
    | deleteContainer place =>
      cases found : store.containers.find place with
      | none =>
        simp only [found, Option.isSome_none, Bool.false_eq_true, if_false, BlobTask.work]
        exact view_dropped housed found
      | some container =>
        simp only [found, Option.isSome_some, if_true, BlobTask.work]
        rw [view_deleteContainer]
        show ((view store).container place |>.isSome, _) = _
        rw [view_container_some found]
        rfl
    | openListing place params =>
      simp only [BlobTask.work]
      split <;> rfl
    | list place params => rfl
    | refuseType => rfl
    | put key content contentType ifNoneMatchAny =>
      rcases putBlob_cases call.now key content contentType ifNoneMatchAny store with
        ⟨absent, refused⟩ | ⟨container, old, home, found, rfl, refused⟩ |
        ⟨container, blob, after, home, allowed, stored, _, _, viewed, _⟩
      · simp only [absent, Option.isSome_none, Bool.false_and, Bool.false_eq_true, if_false, BlobTask.work,
          refused]
      · simp only [home, found, Option.isSome_some, Bool.and_self, Bool.not_true, Bool.and_false,
          Bool.false_eq_true, if_false, BlobTask.work, refused]
      · have there : ((view store).blob key).isSome = (store.blobs.find key).isSome := Option.isSome_map
        simp only [home, allowed, Option.isSome_some, Bool.not_false, Bool.and_true, if_true, BlobTask.work,
          stored, driveStep, view_container_some home, there, viewed]
    | get key ifMatch ifNoneMatch =>
      simp only [BlobTask.work]
      split <;> rfl
    | delete key =>
      cases found : store.blobs.find key with
      | none =>
        simp only [found, Option.isSome_none, Bool.false_eq_true, if_false, BlobTask.work]
        rw [view_erase, ← view_blob_none found, Function.update_eq_self]
      | some blob =>
        simp only [found, Option.isSome_some, if_true, BlobTask.work]
        rw [view_erase]
        show ((view store).blob key |>.isSome, _) = _
        rw [view_blob_some found]
        rfl

/-! ### What the calls answer -/

/-- What a reply says of the drive as the call finds it. -/
def Tells (drive : Drive) : BlobTask → BlobReply → Prop
  | .createContainer place, .containerAlreadyExists => (drive.container place).isSome
  | .reread place, .containerCreated container =>
    container.place = place ∧ drive.container place = some container.createdAt
  | .reread place, .containerNotFound => drive.container place = none
  | .deleteContainer place, .containerDeleted => (drive.container place).isSome
  | .deleteContainer place, .containerNotFound => drive.container place = none
  | .openListing place _, .containerNotFound => drive.container place = none
  | .list place params, .listed page next => ∃ rows : Blobs,
      (∀ name held, drive.blob (place, name) = some held ↔
        ∃ blob ∈ rows.rows, blob.name = name ∧ blob.held = held) ∧
      (page, next) = listBlobs (rows.rows.map AzureBlob.metadata) params
  | .refuseType, .invalidBlobType => True
  | .put key content _ onlyNew, .stored etag lastModified => (drive.container key.1).isSome ∧
      etag = computeEtag content ∧
      ∀ held, drive.blob key = some held → onlyNew = false ∧ lastModified = held.since
  | .put key _ _ _, .containerNotFound => drive.container key.1 = none
  | .put key _ _ onlyNew, .blobAlreadyExists => onlyNew = true ∧ (drive.blob key).isSome
  | .get key ifMatch _, .conditionNotMet => ∃ tag held, ifMatch = some tag ∧ tag ≠ "*" ∧
      drive.blob key = some held ∧ tag ≠ computeEtag held.content
  | .get key _ ifNoneMatch, .notModified etag => ∃ held, drive.blob key = some held ∧
      etag = computeEtag held.content ∧ (ifNoneMatch = some "*" ∨ ifNoneMatch = some etag)
  | .get key ifMatch ifNoneMatch, .blob blob => blob.key = key ∧ drive.blob key = some blob.held ∧
      blob.size = blob.content.length ∧ blob.etag = computeEtag blob.content ∧
      (ifMatch = none ∨ ifMatch = some "*" ∨ ifMatch = some blob.etag) ∧
      ifNoneMatch ≠ some "*" ∧ ifNoneMatch ≠ some blob.etag
  | .get key _ _, .blobNotFound => drive.blob key = none
  | .delete key, .blobDeleted => (drive.blob key).isSome
  | .delete key, .blobNotFound => drive.blob key = none
  | _, .internal => True
  | _, _ => False

theorem blobsIn_held (store : BlobStore) (place : Place) (name : String) (held : Held) :
    (view store).blob (place, name) = some held ↔
      ∃ blob ∈ (store.blobsIn place).rows, blob.name = name ∧ blob.held = held := by
  constructor
  · intro stored
    obtain ⟨blob, found, rfl⟩ := Option.map_eq_some_iff.mp stored
    obtain ⟨inside, same⟩ := Keyed.find_some found
    exact ⟨blob, List.mem_filter.mpr ⟨inside, decide_eq_true (congrArg Prod.fst same)⟩,
      congrArg Prod.snd same, rfl⟩
  · rintro ⟨blob, member, rfl, rfl⟩
    obtain ⟨inside, here⟩ := List.mem_filter.mp member
    have same : blob.key = (place, blob.name) := Prod.ext (of_decide_eq_true here) rfl
    rw [← same]
    exact view_blob_some (Keyed.find_mem inside)

/-- A read that is not refused is of the conditions the blob meets. -/
theorem readConditions_tells {drive : Drive} {key : Place × String} {blob : AzureBlob}
    (ifMatch ifNoneMatch : Option String) (own : blob.key = key) (held : drive.blob key = some blob.held)
    (size : blob.size = blob.content.length) (etag : blob.etag = computeEtag blob.content) :
    Tells drive (.get key ifMatch ifNoneMatch)
      ((readConditions ifMatch ifNoneMatch blob).getD (.blob blob)) := by
  unfold readConditions
  split
  · rename_i unmet
    obtain ⟨given, star, other⟩ := unmet
    obtain ⟨tag, rfl⟩ := Option.ne_none_iff_exists'.mp given
    refine ⟨tag, blob.held, rfl, fun wrong => star (congrArg some wrong), held, fun wrong => other ?_⟩
    rw [etag]
    exact congrArg some wrong
  · rename_i met
    split
    · rename_i unmodified
      exact ⟨blob.held, held, etag, unmodified⟩
    · rename_i modified
      rw [not_or] at modified
      refine ⟨own, held, size, etag, ?_, modified⟩
      by_contra wrong
      rw [not_or, not_or] at wrong
      exact met wrong

/-- **What one call answers.** -/
theorem call_tells (call : BlobCall) (task : BlobTask) {store : BlobStore} (tagged : Tagged store)
    {reply : BlobReply} (ends : (task.run call store).1 = .ends reply) :
    Tells (view store) task reply := by
  have there : ∀ {place container}, store.containers.find place = some container →
      ((view store).container place).isSome := by
    intro place container found
    rw [view_container_some found]
    rfl
  unfold BlobTask.run at ends
  split at ends
  · cases ends
    cases task <;> trivial
  · cases task with
    | createContainer place =>
      simp only [BlobTask.work] at ends
      split at ends
      · rename_i container found
        cases ends
        exact there found
      · cases ends
    | reread place =>
      simp only [BlobTask.work] at ends
      split at ends
      · rename_i container found
        cases ends
        exact ⟨(Keyed.find_some found).2, view_container_some found⟩
      · rename_i absent
        cases ends
        exact view_container_none absent
    | deleteContainer place =>
      simp only [BlobTask.work] at ends
      split at ends
      · rename_i container found
        cases ends
        exact there found
      · rename_i absent
        cases ends
        exact view_container_none absent
    | openListing place params =>
      simp only [BlobTask.work] at ends
      split at ends
      · cases ends
      · rename_i absent
        cases ends
        exact view_container_none absent
    | list place params =>
      cases ends
      exact ⟨store.blobsIn place, blobsIn_held store place, rfl⟩
    | refuseType =>
      cases ends
      trivial
    | put key content contentType ifNoneMatchAny =>
      rcases putBlob_cases call.now key content contentType ifNoneMatchAny store with
        ⟨absent, refused⟩ | ⟨container, old, home, found, only, refused⟩ |
        ⟨container, blob, after, home, allowed, stored, etag, created, _, _⟩
      · simp only [BlobTask.work, refused] at ends
        cases ends
        exact view_container_none absent
      · simp only [BlobTask.work, refused] at ends
        cases ends
        refine ⟨only, ?_⟩
        rw [view_blob_some found]
        rfl
      · simp only [BlobTask.work, stored] at ends
        cases ends
        refine ⟨there home, etag, fun held old => ?_⟩
        obtain ⟨row, found, _⟩ := Option.map_eq_some_iff.mp old
        rw [found, Option.isSome_some, Bool.and_true] at allowed
        rw [old] at created
        exact ⟨allowed, created⟩
    | get key ifMatch ifNoneMatch =>
      simp only [BlobTask.work] at ends
      split at ends
      · rename_i blob found
        cases ends
        obtain ⟨inside, same⟩ := Keyed.find_some found
        obtain ⟨size, etag⟩ := tagged blob inside
        exact readConditions_tells ifMatch ifNoneMatch same (view_blob_some found) size etag
      · rename_i absent
        cases ends
        exact view_blob_none absent
    | delete key =>
      simp only [BlobTask.work] at ends
      split at ends
      · rename_i blob found
        cases ends
        show ((view store).blob key).isSome
        rw [view_blob_some found]
        rfl
      · rename_i absent
        cases ends
        exact view_blob_none absent

/-! ### The invariants -/

/-- The rows that a removal leaves are rows that were there. -/
theorem Tagged.remove {store : BlobStore} (tagged : Tagged store) (containers : Keyed AzureContainer.place)
    (gone : Place × String → Bool) : Tagged ⟨containers, store.blobs.remove gone⟩ :=
  fun blob member => tagged blob (List.mem_filter.mp member).1

theorem tagged_run (call : BlobCall) (task : BlobTask) {store : BlobStore} (tagged : Tagged store) :
    Tagged (task.run call store).2 := by
  unfold BlobTask.run
  split
  · exact tagged
  · cases task with
    | createContainer place =>
      simp only [BlobTask.work]
      split <;> exact tagged
    | reread place =>
      simp only [BlobTask.work]
      split <;> exact tagged
    | deleteContainer place =>
      simp only [BlobTask.work]
      split <;> exact tagged.remove _ _
    | openListing place params =>
      simp only [BlobTask.work]
      split <;> exact tagged
    | list place params => exact tagged
    | refuseType => exact tagged
    | put key content contentType ifNoneMatchAny =>
      rcases putBlob_cases call.now key content contentType ifNoneMatchAny store with
        ⟨_, refused⟩ | ⟨_, _, _, _, _, refused⟩ | ⟨_, _, _, _, _, stored, _, _, _, kept⟩
      · simp only [BlobTask.work, refused]
        exact tagged
      · simp only [BlobTask.work, refused]
        exact tagged
      · simp only [BlobTask.work, stored]
        exact kept tagged
    | get key ifMatch ifNoneMatch =>
      simp only [BlobTask.work]
      split <;> exact tagged
    | delete key =>
      simp only [BlobTask.work]
      split <;> exact tagged.remove _ _

/-- An operation that succeeds leaves no blob without its container. -/
theorem Drive.Housed.step {drive : Drive} (housed : drive.Housed) {operation : DriveOperation}
    (done : (driveStep drive operation).1 = true) : (driveStep drive operation).2.Housed := by
  intro key held
  cases operation with
  | create place now =>
    show (Function.update drive.container place (some now) key.1).isSome
    by_cases same : key.1 = place
    · rw [same, Function.update_self]
      rfl
    · rw [Function.update_of_ne same]
      exact housed key held
  | drop place =>
    change (if key.1 = place then none else drive.blob key).isSome at held
    show (Function.update drive.container place none key.1).isSome
    by_cases same : key.1 = place
    · rw [if_pos same] at held
      cases held
    · rw [if_neg same] at held
      rw [Function.update_of_ne same]
      exact housed key held
  | write own content contentType now onlyNew =>
    change (Function.update drive.blob own _ key).isSome at held
    show (drive.container key.1).isSome
    by_cases same : key = own
    · subst same
      exact (Bool.and_eq_true _ _ ▸ done).1
    · rw [Function.update_of_ne same] at held
      exact housed key held
  | erase own =>
    change (Function.update drive.blob own none key).isSome at held
    show (drive.container key.1).isSome
    by_cases same : key = own
    · rw [same, Function.update_self] at held
      cases held
    · rw [Function.update_of_ne same] at held
      exact housed key held

/-- What every call keeps of the tables. -/
structure Sound (store : BlobStore) : Prop where
  housed : (view store).Housed
  tagged : Tagged store

theorem Sound.run {store : BlobStore} (sound : Sound store) (call : BlobCall) (task : BlobTask) :
    Sound (task.run call store).2 := by
  refine ⟨?_, tagged_run call task sound.tagged⟩
  have effect := call_effect call task sound.housed
  split at effect
  · rw [effect]
    exact sound.housed
  · rename_i operation _
    have step := sound.housed.step (congrArg Prod.fst effect)
    rwa [effect] at step

/-! ### Orders of operations on the drive -/

/-- A blob stays until it is erased or its container is dropped. -/
theorem held_until {key : Place × String} {order : List DriveOperation} : ∀ {start stop : Drive},
    Serializes driveStep start order stop → (start.blob key).isSome →
    (∀ operation ∈ order, operation ≠ .erase key ∧ operation ≠ .drop key.1) → (stop.blob key).isSome := by
  induction order with
  | nil =>
    rintro start stop ⟨rfl, _⟩ held _
    exact held
  | cons operation order ih =>
    intro start stop serializes held kept
    obtain ⟨_, rest⟩ := serializes.first_done
    refine ih rest ?_ fun later member => kept later (List.mem_cons_of_mem _ member)
    obtain ⟨noErase, noDrop⟩ := kept operation List.mem_cons_self
    cases operation with
    | create place now => exact held
    | drop place =>
      have apart : key.1 ≠ place := fun same => noDrop (congrArg DriveOperation.drop same.symm)
      show (if key.1 = place then none else start.blob key).isSome
      rw [if_neg apart]
      exact held
    | write own content contentType now onlyNew =>
      show (Function.update start.blob own _ key).isSome
      by_cases same : key = own
      · rw [same, Function.update_self]
        rfl
      · rw [Function.update_of_ne same]
        exact held
    | erase own =>
      have apart : key ≠ own := fun same => noErase (congrArg DriveOperation.erase same.symm)
      show (Function.update start.blob own none key).isSome
      rw [Function.update_of_ne apart]
      exact held

/-- **A write that asked for a new blob comes after no other write of it**, unless the blob was erased or
its container dropped in between. -/
theorem new_after_deletion {key : Place × String} {content content' : List UInt8}
    {contentType contentType' now now' : String} {onlyNew : Bool} {order : List DriveOperation}
    {start stop : Drive} (serializes : Serializes driveStep start
      (.write key content contentType now onlyNew :: order ++ [.write key content' contentType' now' true])
      stop) : ∃ operation ∈ order, operation = .erase key ∨ operation = .drop key.1 := by
  obtain ⟨middle, before, last⟩ := serializes.split
  obtain ⟨_, between⟩ := before.first_done
  have allowed := last.first_done.1
  by_contra kept
  have held : (middle.blob key).isSome := by
    refine held_until between ?_ fun operation member => ⟨fun erased => kept ⟨operation, member, Or.inl erased⟩,
      fun dropped => kept ⟨operation, member, Or.inr dropped⟩⟩
    show (Function.update start.blob key _ key).isSome
    rw [Function.update_self]
    rfl
  change ((middle.container key.1).isSome && !(true && (middle.blob key).isSome)) = true at allowed
  rw [held] at allowed
  simp at allowed

/-! ### Whole runs -/

abbrev BlobSystem := System BlobStore (Option BlobTask)

abbrev BlobEvent := Event BlobSystem (Nat × Turn BlobCall BlobRequest) (Option BlobReply)

def blobStep : BlobSystem → Nat × Turn BlobCall BlobRequest → Option BlobReply × BlobSystem :=
  System.step (advance beginTask BlobTask.run)

def BlobSystem.empty : BlobSystem := ⟨BlobStore.empty, fun _ => none⟩

def effectOf (event : BlobEvent) : Option DriveOperation :=
  (taskOf beginTask event).effect event.input.2.call event.before.shared

variable {history : List BlobEvent} {final : BlobSystem}

theorem run_sound (ran : Run blobStep BlobSystem.empty history final) :
    Sound final.shared ∧ ∀ event ∈ history, Sound event.before.shared := by
  have initial : Sound BlobSystem.empty.shared :=
    ⟨fun _ held => (by cases held), fun _ member => absurd member List.not_mem_nil⟩
  have preserved : ∀ event : BlobEvent, event.Taken blobStep → Sound event.before.shared →
      Sound event.after.shared := by
    intro event taken sound
    rw [(task_taken taken).1]
    exact sound.run _ _
  exact ⟨@Run.invariant _ _ _ _ _ _ _ (fun system => Sound system.shared) ran initial preserved,
    @Run.invariant_before _ _ _ _ _ _ _ (fun system => Sound system.shared) ran initial preserved⟩

theorem run_serializes (ran : Run blobStep BlobSystem.empty history final) :
    Serializes driveStep Drive.empty (history.filterMap effectOf) (view final.shared) := by
  refine Serializes.of_run (fun system : BlobSystem => view system.shared) effectOf ran
    fun event member => ?_
  have effect := call_effect event.input.2.call (taskOf beginTask event)
    ((run_sound ran).2 event member).housed
  have after := (task_taken (ran.taken_of_mem event member)).1
  rw [← after] at effect
  cases pointed : effectOf event with
  | none =>
    rw [show (taskOf beginTask event).effect event.input.2.call event.before.shared = none from pointed]
      at effect
    exact effect
  | some operation =>
    rw [show (taskOf beginTask event).effect event.input.2.call event.before.shared = some operation
      from pointed] at effect
    exact effect

/-- **The blob store is serial.** In every run, the calls that change something are a serial run of the
drive; each reply says what the drive holds when it is given; no blob is ever without its container; and
of two writes of a blob, of which the later one asked for a new blob, a deletion of the blob or of its
container went through in between. -/
theorem blobs_serial (ran : Run blobStep BlobSystem.empty history final) :
    Serializes driveStep Drive.empty (history.filterMap effectOf) (view final.shared) ∧
    (∀ event ∈ history, ∀ reply, event.output = some reply →
      Tells (view event.before.shared) (taskOf beginTask event) reply) ∧
    (view final.shared).Housed ∧
    ∀ past first between second rest, history = past ++ first :: between ++ second :: rest →
      ∀ key content contentType now onlyNew content' contentType' now',
        effectOf first = some (.write key content contentType now onlyNew) →
        effectOf second = some (.write key content' contentType' now' true) →
        ∃ deletion ∈ between, effectOf deletion = some (.erase key) ∨
          effectOf deletion = some (.drop key.1) := by
  have serial := run_serializes ran
  refine ⟨serial, fun event member reply replied => ?_, (run_sound ran).1.housed, ?_⟩
  · have sound := (run_sound ran).2 event member
    obtain ⟨_, step⟩ := task_taken (ran.taken_of_mem event member)
    split at step
    · rw [step.1] at replied
      cases replied
    · rename_i result ends
      rw [step.1] at replied
      obtain rfl := Option.some.inj replied
      exact call_tells _ _ sound.tagged ends
  · rintro past first between second rest rfl key content contentType now onlyNew content' contentType' now'
      wrote wrotes
    rw [List.filterMap_append, List.filterMap_append, List.filterMap_cons_some wrote,
      List.filterMap_cons_some wrotes, List.append_assoc] at serial
    obtain ⟨_, _, later⟩ := serial.split
    rw [List.append_cons] at later
    obtain ⟨_, window, _⟩ := later.split
    obtain ⟨operation, member, deletes⟩ := new_after_deletion window
    obtain ⟨deletion, inside, acts⟩ := List.mem_filterMap.mp member
    refine ⟨deletion, inside, ?_⟩
    rcases deletes with rfl | rfl
    · exact Or.inl acts
    · exact Or.inr acts

end External

/-! ### Two writers of one blob -/

section Sample

attribute [local instance] External.sample

/-- The headers of a write that asks for a new blob. -/
def onlyNewHeaders : PutHeaders where
  blobType := some "BlockBlob"
  blobContentType := none
  contentType := some "text/plain"
  ifNoneMatch := some "*"

/-- A container, and three writes of one blob that each ask for a new one; the blob is deleted before
the last. -/
def writerTurns : List (Nat × Turn BlobCall BlobRequest) :=
  let place : Place := ("devstoreaccount1", "docs")
  let write (content : List UInt8) : BlobRequest := .put (place, "a.txt") content onlyNewHeaders
  [(0, ⟨⟨"t0", false⟩, .containerPut place⟩), (1, ⟨⟨"t1", false⟩, write [1]⟩),
    (0, ⟨⟨"t2", false⟩, .containerPut place⟩), (2, ⟨⟨"t3", false⟩, write [2]⟩),
    (1, ⟨⟨"t4", false⟩, .delete (place, "a.txt")⟩), (2, ⟨⟨"t5", false⟩, write [3]⟩)]

def writerSystem : BlobSystem :=
  Run.final blobStep BlobSystem.empty writerTurns

def writerHistory : List BlobEvent :=
  Run.trace blobStep BlobSystem.empty writerTurns

theorem blobs_serial_writers :
    ((view writerSystem.shared).blob (("devstoreaccount1", "docs"), "a.txt")).map Held.content = some [3] ∧
    Serializes driveStep Drive.empty (writerHistory.filterMap effectOf) (view writerSystem.shared) ∧
    (∀ event ∈ writerHistory, ∀ reply, event.output = some reply →
      Tells (view event.before.shared) (taskOf beginTask event) reply) ∧
    (view writerSystem.shared).Housed :=
  have serial := blobs_serial (Run.of_trace blobStep writerTurns BlobSystem.empty)
  ⟨by decide, serial.1, serial.2.1, serial.2.2.1⟩

end Sample

end CloudTwin.Azure
