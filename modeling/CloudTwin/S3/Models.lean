/-
**The data of S3** (`aws/s3/models.rs`, `errors.rs`, `schema.rs`).

The current version of a key is a row of `s3_objects`; its other versions, and its delete markers,
are rows of `s3_object_versions`. A table is the list of its rows in the order in which they were
inserted. `seq` is the counter that numbers writes over all buckets.

* `Store` — the tables.
* `S3External` — what the service takes from outside: version ids, and the encryption rule that the
  XML of a bucket's configuration states.
-/

import CloudTwin.External

namespace CloudTwin.S3

/-! ### Errors -/

structure S3Error where
  code : String
  message : String
  /-- Extra `<Error>` children (BucketName, Key, UploadId, ...). -/
  fields : List (String × String)
  /-- Extra response headers (e.g. `x-amz-delete-marker`). -/
  headers : List (String × String)
  deriving DecidableEq

abbrev S3Result := Except S3Error

namespace S3Error

def new (code message : String) : S3Error where
  code := code
  message := message
  fields := []
  headers := []

def withField (error : S3Error) (name value : String) : S3Error :=
  { error with fields := error.fields ++ [(name, value)] }

def header (error : S3Error) (name value : String) : S3Error :=
  { error with headers := error.headers ++ [(name, value)] }

def noSuchBucket (bucket : String) : S3Error :=
  (new "NoSuchBucket" "The specified bucket does not exist").withField "BucketName" bucket

def noSuchKey (key : String) : S3Error :=
  (new "NoSuchKey" "The specified key does not exist.").withField "Key" key

def noSuchUpload (uploadId : String) : S3Error :=
  (new "NoSuchUpload" ("The specified upload does not exist. The upload ID may be invalid, " ++
    "or the upload may have been aborted or completed.")).withField "UploadId" uploadId

def malformedXml : S3Error :=
  new "MalformedXML" ("The XML you provided was not well-formed or did not validate against " ++
    "our published schema")

def invalidArgument (message : String) : S3Error :=
  new "InvalidArgument" message

def preconditionFailed (condition : String) : S3Error :=
  (new "PreconditionFailed" "At least one of the pre-conditions you specified did not hold").withField
    "Condition" condition

end S3Error

/-! ### Objects -/

/-- The attributes of an object that are stored as JSON in the `meta` column. -/
structure ObjMeta where
  user : List (String × String)
  headers : List (String × String)
  sse : List (String × String)
  checksums : List (String × String)
  parts : List Nat
  storageClass : Option String
  websiteRedirect : Option String
  deriving DecidableEq

def ObjMeta.default : ObjMeta where
  user := []
  headers := []
  sse := []
  checksums := []
  parts := []
  storageClass := none
  websiteRedirect := none

/-- `ObjMeta::storage_class`. -/
def ObjMeta.storageClassText (objMeta : ObjMeta) : String :=
  objMeta.storageClass.getD "STANDARD"

abbrev Tags := List (String × String)

/-- An object about to be written. -/
structure NewObject where
  content : List UInt8
  contentType : String
  etag : String
  objMeta : ObjMeta
  tags : Tags

/-- A row of `s3_objects`. -/
structure ObjectRow where
  bucket : String
  key : String
  versionId : String
  seq : Nat
  content : List UInt8
  contentType : String
  size : Nat
  etag : String
  createdAt : Int
  objMeta : ObjMeta
  tags : Tags

/-- A row of `s3_object_versions`. -/
structure VersionRow extends ObjectRow where
  isDeleteMarker : Bool

/-- One object version's attributes (content is loaded separately). -/
structure ObjectInfo where
  bucket : String
  key : String
  versionId : String
  seq : Nat
  isDeleteMarker : Bool
  contentType : String
  size : Nat
  etag : String
  createdAt : Int
  objMeta : ObjMeta
  tags : Tags
  isLatest : Bool
  deriving DecidableEq

/-- Bucket versioning state: `""` (never configured), `Enabled`, `Suspended`. -/
inductive Versioning where
  | unversioned
  | enabled
  | suspended
  deriving DecidableEq

def Versioning.parse (text : String) : Versioning :=
  if text = "Enabled" then .enabled
  else if text = "Suspended" then .suspended
  else .unversioned

structure WriteResult where
  versionId : String
  seq : Nat
  etag : String
  size : Nat
  createdAt : Int
  versioning : Versioning
  objMeta : ObjMeta

structure DeleteOutcome where
  /-- Version id that was removed or created (delete marker). -/
  versionId : Option String
  deleteMarker : Bool
  seq : Nat
  versioning : Versioning

/-! ### Configurations and uploads -/

/-- A row of `s3_bucket_configs`. -/
structure ConfigRow where
  bucket : String
  kind : String
  body : String

/-- A row of `s3_multipart_uploads`. -/
structure Upload where
  uploadId : String
  bucket : String
  key : String
  contentType : String
  objMeta : ObjMeta
  tags : Tags
  createdAt : Int

/-- A row of `s3_multipart_parts`. -/
structure PartRow where
  uploadId : String
  partNumber : Int
  content : List UInt8
  size : Nat
  etag : String
  objMeta : ObjMeta
  createdAt : Int

structure Store where
  buckets : List String
  objects : List ObjectRow
  versions : List VersionRow
  configs : List ConfigRow
  uploads : List Upload
  parts : List PartRow
  /-- The row `seq` of `s3_counters`. -/
  seq : Nat
  drawn : Nat

def Store.empty : Store where
  buckets := []
  objects := []
  versions := []
  configs := []
  uploads := []
  parts := []
  seq := 0
  drawn := 0

/-! ### What the service takes from outside -/

/-- What `<Rule>` says in a bucket's encryption document: the texts of
`ApplyServerSideEncryptionByDefault`, if it is there, and of `BucketKeyEnabled`. -/
structure EncryptionRule where
  byDefault : Option (Option String × Option String)
  bucketKeyEnabled : Option String

/-- **Version ids and XML.** -/
class S3External where
  /-- `new_version_id`, after so many random values. -/
  newVersionId : Nat → String
  /-- `xml::parse(..).child("Rule")`. -/
  encryptionRule : String → Option EncryptionRule

/-- **What the service relies on**: no version id twice, and none that is `null` (a version id has
32 characters). -/
structure VersionIdLaws (service : S3External) : Prop where
  fresh : Function.Injective service.newVersionId
  notNull : ∀ draw, service.newVersionId draw ≠ "null"

/-- Version ids in counting order, and no encryption rules. -/
@[reducible]
def S3External.sample : S3External where
  newVersionId draw := Lib.Text.decimal 32 draw
  encryptionRule _ := none

theorem sample_versionIds : VersionIdLaws S3External.sample where
  fresh := Lib.Text.decimal_injective 32
  notNull := by
    intro draw same
    have digits := Lib.Text.decimal_isDigit 32 draw 'n'
    rw [show Lib.Text.decimal 32 draw = "null" from same] at digits
    exact absurd (digits (by decide)) (by decide)

end CloudTwin.S3
