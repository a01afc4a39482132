/-
**The S3 service** (`aws/s3/service.rs`).

Buckets, objects, versions and multipart uploads, as functions on the tables. Each public function
of the service is one call on the database, and so is atomic; a function that fails leaves the
tables as they were.

* `writeObjectTx`, `deleteObject`, `restoreLatest` — how versions move between the two tables.
* `deleteBucket`, `uploadRow` — the checks that tie rows to their bucket and to their upload.
-/

import CloudTwin.S3.Models
import CloudTwin.Lib.Transaction
import Mathlib.Data.List.Sort

namespace CloudTwin.S3

open Lib Lib.Text

set_option linter.unusedSectionVars false

section External

variable [External] [S3External]

def md5Etag (content : List UInt8) : String :=
  "\"" ++ External.md5Hex content ++ "\""

/-- `next_seq`: the counter goes up, and its new value is returned. -/
def nextSeq (store : Store) : Store :=
  { store with seq := store.seq + 1 }

/-- A random value is drawn. -/
def drawOne (store : Store) : Store :=
  { store with drawn := store.drawn + 1 }

def bucketExists (store : Store) (bucket : String) : Bool :=
  store.buckets.contains bucket

def requireBucket (store : Store) (bucket : String) : S3Result Unit :=
  rejectIf (bucketExists store bucket = false) (S3Error.noSuchBucket bucket)

def configGet (store : Store) (bucket kind : String) : Option String :=
  (store.configs.find? fun row => row.bucket == bucket && row.kind == kind).map ConfigRow.body

def versioningOf (store : Store) (bucket : String) : S3Result Versioning := do
  requireBucket store bucket
  return Versioning.parse ((configGet store bucket "versioning").getD "")

/-! ### Default encryption -/

def sseHeader : String := "x-amz-server-side-encryption"

/-- The algorithm and the further headers that an encryption rule states. -/
def sseOfRule (rule : EncryptionRule) : String × List (String × String) :=
  let given := (rule.byDefault.bind Prod.fst).filter fun text => !text.isEmpty
  let algo := given.getD "AES256"
  let key := (rule.byDefault.bind Prod.snd).filter fun text => !text.isEmpty
  (algo,
    (if startsWith algo "aws:kms" then
      key.toList.map fun key => ("x-amz-server-side-encryption-aws-kms-key-id", key)
    else []) ++
    (if startsWith algo "aws:kms" ∧ rule.bucketKeyEnabled = some "true" then
      [("x-amz-server-side-encryption-bucket-key-enabled", "true")]
    else []))

/-- Fill in bucket-default (or AES256) encryption when the request had none. -/
def applyDefaultSse (store : Store) (bucket : String) (objMeta : ObjMeta) : ObjMeta :=
  if objMeta.sse.any fun entry => entry.1 == sseHeader ||
      entry.1 == "x-amz-server-side-encryption-customer-algorithm" then objMeta
  else
    let (algo, extra) :=
      match (configGet store bucket "encryption").bind S3External.encryptionRule with
      | some rule => sseOfRule rule
      | none => ("AES256", [])
    { objMeta with sse := (sseHeader, algo) :: objMeta.sse ++ extra }

/-! ### Versions of a key -/

/-- `info_from_row`. -/
def infoFromRow (row : ObjectRow) (marker : Bool) : ObjectInfo where
  bucket := row.bucket
  key := row.key
  versionId := row.versionId
  seq := row.seq
  isDeleteMarker := marker
  contentType := row.contentType
  size := row.size
  etag := row.etag
  createdAt := row.createdAt
  objMeta := row.objMeta
  tags := row.tags
  isLatest := false

/-- `WHERE bucket = ?1 AND key = ?2`. -/
def ObjectRow.isFor (row : ObjectRow) (bucket key : String) : Bool :=
  row.bucket == bucket && row.key == key

/-- `WHERE bucket = ?1 AND key = ?2 AND version_id = ?3`. -/
def ObjectRow.isVersion (row : ObjectRow) (bucket key versionId : String) : Bool :=
  row.isFor bucket key && row.versionId == versionId

def currentInfo (store : Store) (bucket key : String) : Option ObjectInfo :=
  (store.objects.find? fun row => row.isFor bucket key).map fun row =>
    { infoFromRow row false with isLatest := true }

/-- `ORDER BY seq DESC`. -/
def newerFirst (first second : VersionRow) : Prop :=
  second.seq ≤ first.seq

instance : DecidableRel newerFirst :=
  fun _ _ => inferInstanceAs (Decidable (_ ≤ _))

def latestArchived (store : Store) (bucket key : String) : Option ObjectInfo :=
  ((store.versions.filter fun row => row.isFor bucket key).insertionSort newerFirst).head?.map
    fun row => infoFromRow row.toObjectRow row.isDeleteMarker

def archivedInfo (store : Store) (bucket key versionId : String) : Option ObjectInfo :=
  (store.versions.find? fun row => row.isVersion bucket key versionId).map fun row =>
    infoFromRow row.toObjectRow row.isDeleteMarker

/-- `DELETE FROM s3_objects WHERE bucket = ?1 AND key = ?2`. -/
def dropCurrent (store : Store) (bucket key : String) : Store :=
  { store with objects := store.objects.filter fun row => !row.isFor bucket key }

/-- `DELETE FROM s3_object_versions WHERE bucket = ?1 AND key = ?2 AND version_id = ?3`. -/
def dropVersion (store : Store) (bucket key versionId : String) : Store :=
  { store with versions := store.versions.filter fun row => !row.isVersion bucket key versionId }

/-- Move the current version of `key` into the version archive. -/
def archiveCurrent (store : Store) (bucket key : String) : Store :=
  let current := store.objects.filter fun row => row.isFor bucket key
  dropCurrent
    { store with
      versions := (store.versions.filter fun old =>
          !current.any fun row => old.isVersion bucket key row.versionId) ++
        current.map fun row => { row with isDeleteMarker := false } }
    bucket key

/-- Make the newest archived version current again if it is a real object. -/
def restoreLatest (store : Store) (bucket key : String) : Store :=
  match latestArchived store bucket key with
  | none => store
  | some latest =>
    if (currentInfo store bucket key).any fun current => latest.seq < current.seq then store
    else
      let archived :=
        if (currentInfo store bucket key).isSome then archiveCurrent store bucket key else store
      if latest.isDeleteMarker then archived
      else
        let restored := archived.versions.filter fun row =>
          row.isVersion bucket key latest.versionId
        dropVersion
          { archived with objects := archived.objects ++ restored.map VersionRow.toObjectRow }
          bucket key latest.versionId

/-- Resolve the version addressed by a request (current when `versionId` is none). -/
def resolveVersion (store : Store) (bucket key : String) (versionId : Option String) :
    S3Result ObjectInfo := do
  requireBucket store bucket
  match versionId with
  | none =>
    match currentInfo store bucket key with
    | some info => .ok info
    | none =>
      let error := S3Error.noSuchKey key
      match latestArchived store bucket key with
      | some latest =>
        if latest.isDeleteMarker then
          .error ((error.header "x-amz-delete-marker" "true").header "x-amz-version-id"
            latest.versionId)
        else .error error
      | none => .error error
  | some version =>
    match (currentInfo store bucket key).filter fun info => info.versionId == version with
    | some info => .ok info
    | none =>
      match archivedInfo store bucket key version with
      | some info =>
        if info.isDeleteMarker then
          .error ((((((S3Error.new "MethodNotAllowed"
            "The specified method is not allowed against this resource.").withField
            "Method" "GET").withField "ResourceType" "DeleteMarker").header
            "x-amz-delete-marker" "true").header "x-amz-version-id" version).header
            "allow" "DELETE")
        else .ok info
      | none =>
        .error (((S3Error.new "NoSuchVersion" "The specified version does not exist.").withField
          "Key" key).withField "VersionId" version)

/-! ### Writing and deleting -/

/-- The version id of a write or of a delete marker. -/
def versionIdFor (store : Store) (versioning : Versioning) : String :=
  if versioning = .enabled then S3External.newVersionId store.drawn else "null"

/-- What a write does to the version that was current: it is replaced or archived. -/
def displace (store : Store) (bucket key versionId : String) (replaces : Bool) : Store :=
  match currentInfo store bucket key with
  | none => store
  | some current =>
    if current.versionId = versionId ∨ replaces = true then dropCurrent store bucket key
    else archiveCurrent store bucket key

/-- `INSERT INTO s3_objects`. -/
def addObject (store : Store) (row : ObjectRow) : Store :=
  { store with objects := store.objects ++ [row] }

/-- `INSERT INTO s3_object_versions`. -/
def addVersion (store : Store) (row : VersionRow) : Store :=
  { store with versions := store.versions ++ [row] }

/-- `if vid == "null"`: the archived version `null` gives way. -/
def dropNull (store : Store) (bucket key versionId : String) : Store :=
  if versionId = "null" then dropVersion store bucket key "null" else store

def writeObjectTx (store : Store) (bucket key : String) (obj : NewObject) (now : Int) :
    S3Result (WriteResult × Store) := do
  let versioning ← versioningOf store bucket
  let objMeta := applyDefaultSse store bucket obj.objMeta
  let counted := nextSeq store
  let versionId := versionIdFor store versioning
  let displaced := displace (drawOne counted) bucket key versionId (versioning == .unversioned)
  let row : ObjectRow :=
    { bucket, key, versionId, seq := counted.seq, content := obj.content
      contentType := obj.contentType, size := obj.content.length, etag := obj.etag, createdAt := now
      objMeta, tags := obj.tags }
  return ({ versionId, seq := counted.seq, etag := obj.etag, size := obj.content.length
            createdAt := now, versioning, objMeta },
    addObject (dropNull displaced bucket key versionId) row)

/-- `put_object` of the service: `write_object` with the MD5 ETag. -/
def putObject (store : Store) (bucket key : String) (content : List UInt8) (contentType : String)
    (objMeta : ObjMeta) (tags : Tags) (now : Int) : S3Result (WriteResult × Store) :=
  writeObjectTx store bucket key { content, contentType, etag := md5Etag content, objMeta, tags } now

/-- Delete a specific version. -/
def deleteVersion (store : Store) (bucket key versionId : String) (versioning : Versioning) :
    DeleteOutcome × Store :=
  let isCurrent := (currentInfo store bucket key).any fun info => info.versionId == versionId
  let archived := archivedInfo store bucket key versionId
  let removed :=
    if isCurrent then restoreLatest (dropCurrent store bucket key) bucket key
    else if archived.isSome then
      restoreLatest (dropVersion store bucket key versionId) bucket key
    else store
  let marker := !isCurrent && archived.any ObjectInfo.isDeleteMarker
  let after := nextSeq removed
  ({ versionId := some versionId, deleteMarker := marker, seq := after.seq, versioning }, after)

/-- A delete marker for the key of a bucket whose versioning is configured. -/
def markDeleted (store : Store) (bucket key : String) (versioning : Versioning) (now : Int) :
    DeleteOutcome × Store :=
  let versionId := versionIdFor store versioning
  let displaced := displace (drawOne store) bucket key versionId false
  let counted := nextSeq (dropNull displaced bucket key versionId)
  let row : VersionRow :=
    { bucket, key, versionId, seq := counted.seq, content := []
      contentType := "application/octet-stream", size := 0, etag := "", createdAt := now, objMeta := ObjMeta.default, tags := []
      isDeleteMarker := true }
  ({ versionId := some versionId, deleteMarker := true, seq := counted.seq, versioning },
    addVersion counted row)

/-- Delete the current object (creating a delete marker when versioned) or a specific version. -/
def deleteObject (store : Store) (bucket key : String) (versionId : Option String) (now : Int) :
    S3Result (DeleteOutcome × Store) := do
  let versioning ← versioningOf store bucket
  match versionId with
  | some versionId => return deleteVersion store bucket key versionId versioning
  | none =>
    if versioning = .unversioned then
      let after := nextSeq (dropCurrent store bucket key)
      return ({ versionId := none, deleteMarker := false, seq := after.seq, versioning }, after)
    else return markDeleted store bucket key versioning now

/-- Replace the tag set of a version; returns the version touched. -/
def setObjectTags (store : Store) (bucket key : String) (versionId : Option String) (tags : Tags) :
    S3Result (ObjectInfo × Store) := do
  let info ← resolveVersion store bucket key versionId
  let touched := fun row : ObjectRow =>
    row.isVersion bucket key info.versionId && row.seq == info.seq
  return (info, { store with
    objects := store.objects.map fun row => if touched row then { row with tags } else row
    versions := store.versions.map fun row =>
      if touched row.toObjectRow then { row with tags } else row })

/-! ### Buckets -/

/-- Create a bucket; returns false when it already existed. -/
def createBucket (store : Store) (name : String) : Bool × Store :=
  if bucketExists store name then (false, store)
  else (true, { store with buckets := store.buckets ++ [name] })

def deleteBucket (store : Store) (name : String) : S3Result Store := do
  requireBucket store name
  rejectIf ((store.objects.filter fun row => row.bucket == name).length +
      (store.versions.filter fun row => row.bucket == name).length > 0)
    ((S3Error.new "BucketNotEmpty" "The bucket you tried to delete is not empty").withField
      "BucketName" name)
  return { store with
    configs := store.configs.filter fun row => row.bucket != name
    parts := store.parts.filter fun part =>
      !(store.uploads.any fun upload => upload.bucket == name && upload.uploadId == part.uploadId)
    uploads := store.uploads.filter fun row => row.bucket != name
    buckets := store.buckets.filter fun row => row != name }

/-- `INSERT .. ON CONFLICT(bucket, kind) DO UPDATE SET body`. -/
def putConfig (store : Store) (bucket kind body : String) : S3Result Store := do
  requireBucket store bucket
  let isRow := fun row : ConfigRow => row.bucket == bucket && row.kind == kind
  return { store with
    configs :=
      if store.configs.any isRow then
        store.configs.map fun row => if isRow row then { row with body } else row
      else store.configs ++ [{ bucket, kind, body }] }

def deleteConfig (store : Store) (bucket kind : String) : S3Result Store := do
  requireBucket store bucket
  return { store with
    configs := store.configs.filter fun row => !(row.bucket == bucket && row.kind == kind) }

/-! ### Multipart uploads -/

def uploadRow (store : Store) (bucket key uploadId : String) : S3Result Upload := do
  requireBucket store bucket
  okOr (store.uploads.find? fun row =>
      row.uploadId == uploadId && row.bucket == bucket && row.key == key)
    (S3Error.noSuchUpload uploadId)

def createUpload (store : Store) (bucket key contentType : String) (objMeta : ObjMeta) (tags : Tags)
    (now : Int) : S3Result (Upload × Store) := do
  requireBucket store bucket
  let upload : Upload :=
    { uploadId := simpleUuid (External.uuid store.drawn), bucket, key, contentType
      objMeta := applyDefaultSse store bucket objMeta, tags, createdAt := now }
  return (upload, { store with uploads := store.uploads ++ [upload], drawn := store.drawn + 1 })

def badPartNumber (partNumber : Int) : S3Error :=
  ((S3Error.invalidArgument
    "Part number must be an integer between 1 and 10000, inclusive").withField
    "ArgumentName" "partNumber").withField "ArgumentValue" (toString partNumber)

def uploadPart (store : Store) (bucket key uploadId : String) (partNumber : Int)
    (content : List UInt8) (objMeta : ObjMeta) (now : Int) : S3Result (String × Store) := do
  rejectIf (¬ (1 ≤ partNumber ∧ partNumber ≤ 10000)) (badPartNumber partNumber)
  let _ ← uploadRow store bucket key uploadId
  let etag := md5Etag content
  return (etag, { store with
    parts := (store.parts.filter fun row =>
        !(row.uploadId == uploadId && row.partNumber == partNumber)) ++
      [{ uploadId, partNumber, content, size := content.length, etag, objMeta, createdAt := now }] })

/-- `trim_matches('"')`. -/
def trimQuotes (text : String) : String :=
  String.ofList ((((text.toList.dropWhile (· == '"')).reverse).dropWhile (· == '"')).reverse)

def hexValue (char : Char) : Option Nat :=
  if '0' ≤ char ∧ char ≤ '9' then some (char.toNat - '0'.toNat)
  else if 'a' ≤ char ∧ char ≤ 'f' then some (char.toNat - 'a'.toNat + 10)
  else if 'A' ≤ char ∧ char ≤ 'F' then some (char.toNat - 'A'.toNat + 10)
  else none

/-- `hex::decode`. -/
def hexDecode : List Char → Option (List UInt8)
  | [] => some []
  | [_] => none
  | high :: low :: rest => do
    let first ← hexValue high
    let second ← hexValue low
    let bytes ← hexDecode rest
    return UInt8.ofNat (first * 16 + second) :: bytes

def invalidPart (uploadId : String) (partNumber : Int) (etag : String) : S3Error :=
  (((S3Error.new "InvalidPart" ("One or more of the specified parts could not be found.  The " ++
    "part may not have been uploaded, or the specified entity tag may not have matched the " ++
    "part's entity tag.")).withField "UploadId" uploadId).withField
    "PartNumber" (toString partNumber)).withField "ETag" etag

/-- The parts that the request names, in its order. -/
def requestedParts (store : Store) (uploadId : String) :
    List (Int × String) → S3Result (List PartRow)
  | [] => .ok []
  | (partNumber, etag) :: rest => do
    let row ← okOr ((store.parts.find? fun row =>
        row.uploadId == uploadId && row.partNumber == partNumber).filter fun row =>
          trimQuotes row.etag == trimQuotes (trim etag))
      (invalidPart uploadId partNumber etag)
    let rows ← requestedParts store uploadId rest
    return row :: rows

/-- Each part number is greater than the one before it. -/
def ascending : List (Int × String) → Bool
  | first :: second :: rest => first.1 < second.1 && ascending (second :: rest)
  | _ => true

/-- The object that the parts make up. -/
def assembled (upload : Upload) (parts : List PartRow) : NewObject where
  content := parts.flatMap PartRow.content
  contentType := upload.contentType
  etag := "\"" ++ External.md5Hex (parts.flatMap fun row =>
      (hexDecode (trimQuotes row.etag).toList).getD []) ++ "-" ++ toString parts.length ++ "\""
  objMeta := { upload.objMeta with parts := parts.map fun row => row.content.length, checksums := [] }
  tags := upload.tags

/-- The upload and its parts go. -/
def dropUpload (store : Store) (uploadId : String) : Store :=
  { store with
    parts := store.parts.filter fun row => row.uploadId != uploadId
    uploads := store.uploads.filter fun row => row.uploadId != uploadId }

/-- Assemble the requested parts and write the final object. -/
def completeUpload (store : Store) (bucket key uploadId : String)
    (requested : List (Int × String)) (now : Int) : S3Result (WriteResult × Store) := do
  rejectIf (requested.isEmpty) S3Error.malformedXml
  rejectIf (ascending requested = false) ((S3Error.new "InvalidPartOrder" ("The list of parts " ++
    "was not in ascending order. Parts must be ordered by part number.")).withField
    "UploadId" uploadId)
  let upload ← uploadRow store bucket key uploadId
  let parts ← requestedParts store uploadId requested
  let (result, written) ← writeObjectTx store bucket key (assembled upload parts) now
  return (result, dropUpload written uploadId)

def abortUpload (store : Store) (bucket key uploadId : String) : S3Result Store := do
  let _ ← uploadRow store bucket key uploadId
  return dropUpload store uploadId

end External

end CloudTwin.S3
