/-
**The database calls of S3 requests** (`aws/s3/service.rs`, called from `object.rs`, `bucket.rs` and
`multipart.rs`).

Every function of the service that a request awaits is one call on the database. `Call` lists the
calls that write, and the reading call of a conditional PutObject, each with its arguments; a run of
`perform` in which they follow each other in any order, with any arguments, is every interleaving of
requests.
-/

import CloudTwin.S3.Service

namespace CloudTwin.S3

open Lib

set_option linter.unusedSectionVars false

/-- **A call on the database** with its arguments. -/
inductive Call where
  | createBucket (name : String)
  | deleteBucket (name : String)
  | putConfig (bucket kind body : String)
  | deleteConfig (bucket kind : String)
  | objectInfo (bucket key : String) (versionId : Option String)
  | writeObject (bucket key : String) (obj : NewObject)
  | deleteObject (bucket key : String) (versionId : Option String)
  | setObjectTags (bucket key : String) (versionId : Option String) (tags : Tags)
  | createUpload (bucket key contentType : String) (objMeta : ObjMeta) (tags : Tags)
  | uploadPart (bucket key uploadId : String) (partNumber : Int) (content : List UInt8)
      (objMeta : ObjMeta)
  | completeUpload (bucket key uploadId : String) (requested : List (Int × String))
  | abortUpload (bucket key uploadId : String)

/-- What a call returns. -/
inductive Response where
  | done
  | bucket (created : Bool)
  | info (info : ObjectInfo)
  | written (result : WriteResult)
  | deleted (outcome : DeleteOutcome)
  | upload (upload : Upload)
  | part (etag : String)

/-- A call and the reading of the clock when it runs. -/
structure Input where
  now : Int
  call : Call

section External

variable [External] [S3External]

def noAnswer (result : S3Result Store) : S3Result (Response × Store) :=
  result.map fun after => (.done, after)

def answerWith {α : Type} (answer : α → Response) (result : S3Result (α × Store)) :
    S3Result (Response × Store) :=
  result.map fun pair => (answer pair.1, pair.2)

theorem noAnswer_ok {result : S3Result Store} {response : Response} {after : Store}
    (done : noAnswer result = .ok (response, after)) : result = .ok after ∧ response = .done := by
  cases result with
  | error error => cases done
  | ok store =>
    cases done
    exact ⟨rfl, rfl⟩

theorem answerWith_ok {α : Type} {answer : α → Response} {result : S3Result (α × Store)}
    {response : Response} {after : Store} (done : answerWith answer result = .ok (response, after)) :
    ∃ value, result = .ok (value, after) ∧ answer value = response := by
  cases result with
  | error error => cases done
  | ok pair =>
    cases done
    exact ⟨pair.1, rfl, rfl⟩

/-- **What a call does.** -/
def execute (store : Store) (input : Input) : S3Result (Response × Store) :=
  let now := input.now
  match input.call with
  | .createBucket name => .ok (.bucket (createBucket store name).1, (createBucket store name).2)
  | .deleteBucket name => noAnswer (deleteBucket store name)
  | .putConfig bucket kind body => noAnswer (putConfig store bucket kind body)
  | .deleteConfig bucket kind => noAnswer (deleteConfig store bucket kind)
  | .objectInfo bucket key versionId =>
    (resolveVersion store bucket key versionId).map fun info => (.info info, store)
  | .writeObject bucket key obj => answerWith .written (writeObjectTx store bucket key obj now)
  | .deleteObject bucket key versionId =>
    answerWith .deleted (deleteObject store bucket key versionId now)
  | .setObjectTags bucket key versionId tags =>
    answerWith .info (setObjectTags store bucket key versionId tags)
  | .createUpload bucket key contentType objMeta tags =>
    answerWith .upload (createUpload store bucket key contentType objMeta tags now)
  | .uploadPart bucket key uploadId partNumber content objMeta =>
    answerWith .part (uploadPart store bucket key uploadId partNumber content objMeta now)
  | .completeUpload bucket key uploadId requested =>
    answerWith .written (completeUpload store bucket key uploadId requested now)
  | .abortUpload bucket key uploadId => noAnswer (abortUpload store bucket key uploadId)

/-- **A call**: what it writes is kept when it succeeds; when it fails, it writes nothing. -/
def perform : Store → Input → S3Result Response × Store :=
  commit execute

abbrev S3Event := Event Store Input (S3Result Response)

/-- **A run of S3** on a database that was empty at first: calls of any requests, in any order. -/
abbrev S3Run (history : List S3Event) (store : Store) : Prop :=
  Run perform Store.empty history store

end External

/-! ### Sample calls -/

/-- Calls at time zero. -/
def sampleInputs (calls : List Call) : List Input :=
  calls.map fun call => { now := 0, call }

def sampleObject (etag : String) : NewObject where
  content := []
  contentType := "text/plain"
  etag := etag
  objMeta := ObjMeta.default
  tags := []

section Sample

attribute [local instance] External.sample S3External.sample

/-- The store after the calls. -/
def sampleStore (calls : List Call) : Store :=
  Run.final perform Store.empty (sampleInputs calls)

end Sample

end CloudTwin.S3
