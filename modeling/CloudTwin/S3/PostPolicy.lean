/-
**Uploads by forms** (`aws/s3/post_object.rs`, `aws/s3/handlers.rs`).

A form names the key and the attributes of an object, and may carry a policy. The conditions of the
policy are checked on the first field of a name; the object is stored with what `object_attrs` reads
from the same fields.

* `readForm`, `checkPolicy`, `objectAttrs`, `post` — the upload.
* `fieldTests`, `storedValues` — what a condition says, and of which values of the stored object.
* `Fair`, `Checked` — a field, a condition, that is checked on all that is stored.
* `policy_holds` — the stored object satisfies exactly such conditions.
* `repeated_meta_unchecked` — a field given twice, of which one value is checked and both are stored.
-/

import CloudTwin.Lib.Utf8
import CloudTwin.S3.Service

namespace CloudTwin.S3.PostPolicy

open Lib Lib.Text

set_option linter.unusedSectionVars false

/-! ### Forms -/

structure FormField where
  name : Option String
  fileName : Option String
  contentType : Option String
  content : List UInt8

/-- **The parsers of crates outside the repository**, and those of tags. -/
class PostParser where
  /-- `Field::text`, in the charset that the field names. -/
  text : FormField → String
  /-- `STANDARD.decode`. -/
  base64 : String → Option (List UInt8)
  /-- `serde_json::from_slice::<Value>`. -/
  json : List UInt8 → Option Json
  /-- `DateTime::parse_from_rfc3339`. -/
  rfc3339 : String → Option Int
  /-- `parse_tagging` and `validate_tags`. -/
  tagging : String → S3Result Tags
  /-- `parse_tag_query`. -/
  tagQuery : String → S3Result Tags

structure Form where
  /-- Lowercase field names. -/
  fields : List (String × String)
  filename : String
  content : List UInt8
deriving DecidableEq

/-- The first value of a name. -/
def pair (pairs : List (String × String)) (name : String) : Option String :=
  (pairs.find? fun entry => entry.1 == name).map Prod.snd

def Form.get (form : Form) (name : String) : Option String := pair form.fields name

/-- Fields after the file are ignored. -/
def readFields [PostParser] : List (String × String) → List FormField → S3Result Form
  | _, [] =>
    .error (((S3Error.invalidArgument "POST requires exactly one file upload per request.").withField
      "ArgumentName" "file").withField "ArgumentValue" "0")
  | fields, field :: rest =>
    let name := toAsciiLowercase (field.name.getD "")
    if name = "file" then
      .ok { fields, filename := field.fileName.getD "", content := field.content }
    else readFields (fields ++ [(name, PostParser.text field)]) rest

/-- `read_form`, of a body that is well formed. -/
def readForm [PostParser] (fields : List FormField) : S3Result Form := readFields [] fields

/-! ### The policy -/

def invalid (message : String) : S3Error :=
  S3Error.new "InvalidPolicyDocument" ("Invalid Policy: " ++ message)

section External

variable [External] [PostParser]

def denied (condition : Json) : S3Error :=
  S3Error.new "AccessDenied"
    ("Invalid according to Policy: Policy Condition failed: " ++ External.jsonToString condition)

/-- The name of a field in a condition. -/
def fieldName (field : String) : String :=
  toAsciiLowercase (String.ofList (field.toList.dropWhile (· == '$')))

def valueOf (form : Form) (bucket key field : String) : String :=
  if fieldName field = "bucket" then bucket
  else if fieldName field = "key" then key
  else (form.get (fieldName field)).getD ""

def textAt (items : List Json) (index : Nat) : String :=
  ((items[index]?).bind Json.asStr).getD ""

def checkSize (size low high : Int) : S3Result Unit :=
  if high < size then
    .error (((S3Error.new "EntityTooLarge"
      "Your proposed upload exceeds the maximum allowed size").withField "ProposedSize"
        (toString size)).withField "MaxSizeAllowed" (toString high))
  else if size < low then
    .error (((S3Error.new "EntityTooSmall"
      "Your proposed upload is smaller than the minimum allowed size").withField "ProposedSize"
        (toString size)).withField "MinSizeAllowed" (toString low))
  else .ok ()

/-- What `eq` and `starts-with` say of a value: a content type may be a list. -/
def fieldTest (op field expected actual : String) : Bool :=
  if op = "eq" then actual == expected
  else if eqIgnoreAsciiCase field "$content-type" then
    (split ',' actual).all fun part => startsWith (trim part) expected
  else startsWith actual expected

def checkCondition (form : Form) (bucket key : String) (condition : Json) : S3Result Unit :=
  match condition with
  | .obj members =>
    if members.all fun entry => valueOf form bucket key entry.1 == (entry.2.asStr).getD "" then .ok ()
    else .error (denied condition)
  | .arr (first :: rest) =>
    let op := toAsciiLowercase (first.asStr.getD "")
    if op = "content-length-range" then
      checkSize form.content.length (((rest[0]?).bind Json.asI64).getD 0)
        (((rest[1]?).bind Json.asI64).getD (2 ^ 63 - 1))
    else if op = "eq" ∨ op = "starts-with" then
      if fieldTest op (textAt rest 0) (textAt rest 1) (valueOf form bucket key (textAt rest 0)) then
        .ok ()
      else .error (denied condition)
    else .error (invalid ("Invalid condition operator " ++ op))
  | _ => .error (invalid "Invalid condition")

def checkConditions (form : Form) (bucket key : String) : List Json → S3Result Unit
  | [] => .ok ()
  | condition :: rest =>
    (checkCondition form bucket key condition).bind fun _ => checkConditions form bucket key rest

def conditionsOf (policy : Json) : List Json :=
  match policy.get "conditions" with
  | some (.arr items) => items
  | _ => []

def checkExpiration (policy : Json) (now : Int) : S3Result Unit :=
  match (policy.get "expiration").bind Json.asStr with
  | none => .ok ()
  | some text =>
    match PostParser.rfc3339 text with
    | none => .error (invalid "Invalid 'expiration' value.")
    | some expiration =>
      if expiration < now then
        .error (S3Error.new "AccessDenied" "Invalid according to Policy: Policy expired.")
      else .ok ()

/-- The document that a policy field holds. -/
def documentOf (text : String) : S3Result Json :=
  match PostParser.base64 (trim text) with
  | none => .error (invalid "Invalid Base64 Encoding.")
  | some raw =>
    match PostParser.json raw with
    | none => .error (invalid "Invalid JSON.")
    | some policy => .ok policy

/-- Enforce expiration, `eq` / `starts-with` and `content-length-range`. -/
def checkPolicy (text : String) (form : Form) (bucket key : String) (now : Int) : S3Result Unit :=
  (documentOf text).bind fun policy =>
    (checkExpiration policy now).bind fun _ => checkConditions form bucket key (conditionsOf policy)

/-! ### The upload -/

def stdHeaders : List String :=
  ["cache-control", "content-disposition", "content-encoding", "content-language", "expires"]

def sseHeaders : List String :=
  ["x-amz-server-side-encryption", "x-amz-server-side-encryption-aws-kms-key-id",
    "x-amz-server-side-encryption-bucket-key-enabled", "x-amz-server-side-encryption-context",
    "x-amz-server-side-encryption-customer-algorithm",
    "x-amz-server-side-encryption-customer-key-md5"]

def checksumHeaders : List String :=
  ["x-amz-checksum-crc32", "x-amz-checksum-crc32c", "x-amz-checksum-crc64nvme",
    "x-amz-checksum-sha1", "x-amz-checksum-sha256"]

/-- `strip_prefix("x-amz-meta-")`. -/
def userName (field : String) : Option String :=
  if startsWith field "x-amz-meta-" then
    some (String.ofList (field.toList.drop "x-amz-meta-".toList.length))
  else none

/-- A content encoding without `aws-chunked`. -/
def dropChunked (value : String) : String :=
  String.intercalate ", " (((split ',' value).map trim).filter fun part =>
    !eqIgnoreAsciiCase part "aws-chunked" && !part.isEmpty)

def storedHeader (pairs : List (String × String)) (name : String) : Option (String × String) :=
  (pair pairs name).bind fun value =>
    let kept := if name = "content-encoding" then dropChunked value else value
    if kept = "" then none else some (name, kept)

def metaOf (pairs : List (String × String)) : ObjMeta where
  user := pairs.filterMap fun entry => (userName entry.1).map fun name => (name, entry.2)
  headers := stdHeaders.filterMap (storedHeader pairs)
  sse := sseHeaders.filterMap fun name => (pair pairs name).map fun value => (name, value)
  checksums := checksumHeaders.filterMap fun name => (pair pairs name).map fun value => (name, value)
  parts := []
  storageClass := pair pairs "x-amz-storage-class"
  websiteRedirect := pair pairs "x-amz-website-redirect-location"

/-- Extract stored object attributes from lowercase header/form pairs. -/
def objectAttrs (pairs : List (String × String)) : S3Result (Option String × ObjMeta) :=
  let algo := (pair pairs "x-amz-server-side-encryption").filter fun algo =>
    !(["AES256", "aws:kms", "aws:kms:dsse"].contains algo)
  match algo with
  | some algo =>
    .error (((S3Error.invalidArgument
      ("Server Side Encryption with unsupported algorithm " ++ algo)).withField
        "ArgumentName" "x-amz-server-side-encryption").withField "ArgumentValue" algo)
  | none =>
    match (pair pairs "x-amz-tagging").map PostParser.tagQuery with
    | some (.error error) => .error error
    | _ => .ok (pair pairs "content-type", metaOf pairs)

/-- `str::replace`, on characters: so many are still to be skipped. -/
def replaceFrom (pattern other : List Char) : Nat → List Char → List Char
  | _, [] => []
  | skip + 1, _ :: rest => replaceFrom pattern other skip rest
  | 0, first :: rest =>
    if pattern.isPrefixOf (first :: rest) then
      other ++ replaceFrom pattern other (pattern.length - 1) rest
    else first :: replaceFrom pattern other 0 rest

def keyOf (given filename : String) : String :=
  String.ofList (replaceFrom "$\x7bfilename\x7d".toList filename.toList 0 given.toList)

def checkGiven (form : Form) (bucket key : String) (now : Int) : S3Result Unit :=
  match form.get "policy" with
  | some text => checkPolicy text form bucket key now
  | none => .ok ()

def tagsOf (form : Form) : S3Result Tags :=
  match form.get "tagging" with
  | some text => PostParser.tagging text
  | none => .ok []

variable [S3External]

def postObject (store : Store) (bucket : String) (form : Form) (now : Int) :
    S3Result (WriteResult × Store) :=
  match form.get "key" with
  | none =>
    .error (((S3Error.invalidArgument ("Bucket POST must contain a field named 'key'.  If it is " ++
      "specified, please check the order of the fields.")).withField "ArgumentName" "key").withField
        "ArgumentValue" "")
  | some given =>
    let key := keyOf given form.filename
    if bucketExists store bucket = false then .error (S3Error.noSuchBucket bucket)
    else
      (checkGiven form bucket key now).bind fun _ =>
        (objectAttrs form.fields).bind fun attrs =>
          (tagsOf form).bind fun tags =>
            putObject store bucket key form.content (attrs.1.getD "binary/octet-stream") attrs.2 tags now

/-- `handle`: an error leaves the store as it was. -/
def post (store : Store) (bucket : String) (fields : List FormField) (now : Int) :
    S3Result WriteResult × Store :=
  match (readForm fields).bind fun form => postObject store bucket form now with
  | .ok (result, after) => (.ok result, after)
  | .error error => (.error error, store)

/-! ### What a condition says -/

/-- The fields that a condition is about, each with what it says of a value. -/
def fieldTests (condition : Json) : List (String × (String → Bool)) :=
  match condition with
  | .obj members => members.map fun entry => (entry.1, fun actual => actual == (entry.2.asStr).getD "")
  | .arr (first :: rest) =>
    let op := toAsciiLowercase (first.asStr.getD "")
    if op = "eq" ∨ op = "starts-with" then
      [(textAt rest 0, fieldTest op (textAt rest 0) (textAt rest 1))]
    else []
  | _ => []

/-- The bounds of a length, if the condition is about one and its bounds are integers. -/
def sizeRange (condition : Json) : Option (Int × Int) :=
  match condition with
  | .arr (first :: .num low :: .num high :: _) =>
    if toAsciiLowercase (first.asStr.getD "") = "content-length-range" then some (low, high) else none
  | _ => none

/-- The values that the object has for a field. -/
def storedValues (row : ObjectRow) (field : String) : List String :=
  if field = "bucket" then [row.bucket]
  else if field = "key" then [row.key]
  else if field = "content-type" then [row.contentType]
  else if field ∈ stdHeaders then
    (row.objMeta.headers.filter fun entry => entry.1 == field).map Prod.snd
  else if field ∈ sseHeaders then
    (row.objMeta.sse.filter fun entry => entry.1 == field).map Prod.snd
  else if field = "x-amz-storage-class" then row.objMeta.storageClass.toList
  else
    match userName field with
    | some name => (row.objMeta.user.filter fun entry => entry.1 == name).map Prod.snd
    | none => []

/-- The object satisfies a condition: every value of the field, and the length. -/
def Satisfied (row : ObjectRow) (condition : Json) : Prop :=
  (∀ entry ∈ fieldTests condition, ∀ value ∈ storedValues row (fieldName entry.1),
    entry.2 value = true) ∧
  ∀ low high, sizeRange condition = some (low, high) →
    low ≤ (row.content.length : Int) ∧ (row.content.length : Int) ≤ high

/-- The form asks for an encryption. -/
def Asked (form : Form) : Prop :=
  (form.get sseHeader).isSome = true ∨
    (form.get "x-amz-server-side-encryption-customer-algorithm").isSome = true

/-- What a bucket adds to an object that asks for no encryption. -/
def defaultSse (store : Store) (bucket : String) : List (String × String) :=
  match (configGet store bucket "encryption").bind S3External.encryptionRule with
  | some rule => (sseHeader, (sseOfRule rule).1) :: (sseOfRule rule).2
  | none => [(sseHeader, "AES256")]

/-- **What is said of one value holds of all that are stored**: every repetition of a metadata field
meets the condition, the default of a content type that is not given does, a content encoding does
without its `aws-chunked`, and so does the encryption that the bucket adds. -/
structure Fair (store : Store) (bucket : String) (form : Form) (field : String)
    (test : String → Bool) : Prop where
  repeated : ∀ name, userName field = some name → ∀ entry ∈ form.fields, entry.1 = field →
    test entry.2 = true
  contentType : field = "content-type" → form.get field = none → test "binary/octet-stream" = true
  encoding : field = "content-encoding" → ∀ value, form.get field = some value →
    dropChunked value = "" ∨ test (dropChunked value) = true
  encrypted : field ∈ sseHeaders → ¬ Asked form → ∀ entry ∈ defaultSse store bucket, entry.1 = field →
    test entry.2 = true

/-- **A condition that is checked on all that is stored**; a length has no least bound above `i64`, and
no greatest bound below it. -/
structure Checked (store : Store) (bucket : String) (form : Form) (condition : Json) : Prop where
  fields : ∀ entry ∈ fieldTests condition, Fair store bucket form (fieldName entry.1) entry.2
  bounds : ∀ low high, sizeRange condition = some (low, high) → low < 2 ^ 63 ∧ -(2 ^ 63) ≤ high

/-! ### The check -/

theorem bind_eq_ok {ε α β : Type} {first : Except ε α} {rest : α → Except ε β} {value : β}
    (done : first.bind rest = .ok value) : ∃ middle, first = .ok middle ∧ rest middle = .ok value :=
  bind_ok done

theorem checkSize_ok {size low high : Int} (passed : checkSize size low high = .ok ()) :
    low ≤ size ∧ size ≤ high := by
  unfold checkSize at passed
  split at passed
  · cases passed
  · rename_i notAbove
    split at passed
    · cases passed
    · rename_i notBelow
      exact ⟨not_lt.mp notBelow, not_lt.mp notAbove⟩

/-- A bound that an `i64` does not hold is replaced by a default. -/
theorem size_iff {size : Nat} {low high : Int} {more : List Json}
    (passed : checkSize size ((((Json.num low :: .num high :: more)[0]?).bind Json.asI64).getD 0)
      ((((Json.num low :: .num high :: more)[1]?).bind Json.asI64).getD (2 ^ 63 - 1)) = .ok ()) :
    low ≤ (size : Int) ∧ (size : Int) ≤ high ↔ low < 2 ^ 63 ∧ -(2 ^ 63) ≤ high := by
  have within := checkSize_ok passed
  have lowRead : (((Json.num low :: .num high :: more)[0]?).bind Json.asI64) =
      if -(2 ^ 63) ≤ low ∧ low < 2 ^ 63 then some low else none := rfl
  have highRead : (((Json.num low :: .num high :: more)[1]?).bind Json.asI64) =
      if -(2 ^ 63) ≤ high ∧ high < 2 ^ 63 then some high else none := rfl
  rw [lowRead, highRead] at within
  have positive : (0 : Int) ≤ size := Int.natCast_nonneg size
  split at within
  · split at within
    · simp only [Option.getD_some] at within
      omega
    · simp only [Option.getD_some, Option.getD_none] at within
      omega
  · split at within
    · simp only [Option.getD_some, Option.getD_none] at within
      omega
    · simp only [Option.getD_none] at within
      omega

/-- **A condition that passes** holds of the values that are checked. -/
theorem checkCondition_ok {form : Form} {bucket key : String} {condition : Json}
    (passed : checkCondition form bucket key condition = .ok ()) :
    (∀ entry ∈ fieldTests condition, entry.2 (valueOf form bucket key entry.1) = true) ∧
      ∀ low high, sizeRange condition = some (low, high) →
        (low ≤ (form.content.length : Int) ∧ (form.content.length : Int) ≤ high ↔
          low < 2 ^ 63 ∧ -(2 ^ 63) ≤ high) := by
  unfold checkCondition at passed
  split at passed
  · rename_i members
    split at passed
    · rename_i all
      refine ⟨fun entry member => ?_, fun low high wrong => by cases wrong⟩
      obtain ⟨given, inside, rfl⟩ := List.mem_map.mp member
      exact List.all_eq_true.mp all given inside
    · cases passed
  · rename_i first rest
    dsimp only at passed
    by_cases range : toAsciiLowercase (first.asStr.getD "") = "content-length-range"
    · rw [if_pos range] at passed
      have noTests : fieldTests (.arr (first :: rest)) = [] := by
        unfold fieldTests
        dsimp only
        rw [range, if_neg (by decide)]
      refine ⟨fun entry member => ?_, fun low high bounds => ?_⟩
      · rw [noTests] at member
        exact absurd member List.not_mem_nil
      · obtain ⟨more, items⟩ : ∃ more, rest = .num low :: .num high :: more := by
          unfold sizeRange at bounds
          split at bounds
          · rename_i shape
            rw [if_pos (by cases shape; exact range)] at bounds
            cases shape
            cases bounds
            exact ⟨_, rfl⟩
          · cases bounds
        rw [items] at passed
        exact size_iff passed
    · rw [if_neg range] at passed
      have noRange : ∀ low high, sizeRange (.arr (first :: rest)) ≠ some (low, high) := by
        intro low high bounds
        unfold sizeRange at bounds
        split at bounds
        · rename_i shape
          rw [if_neg (by cases shape; exact range)] at bounds
          cases bounds
        · cases bounds
      refine ⟨fun entry member => ?_, fun low high bounds => absurd bounds (noRange low high)⟩
      split at passed
      · rename_i known
        split at passed
        · rename_i holds
          unfold fieldTests at member
          dsimp only at member
          rw [if_pos known, List.mem_singleton] at member
          rw [member]
          exact holds
        · cases passed
      · cases passed
  · cases passed

theorem checkConditions_ok {form : Form} {bucket key : String} {conditions : List Json}
    (passed : checkConditions form bucket key conditions = .ok ()) :
    ∀ condition ∈ conditions, checkCondition form bucket key condition = .ok () := by
  induction conditions with
  | nil => exact fun _ wrong => absurd wrong List.not_mem_nil
  | cons first rest ih =>
    obtain ⟨_, here, later⟩ := bind_eq_ok passed
    intro condition member
    rcases List.mem_cons.mp member with rfl | inside
    · exact here
    · exact ih later condition inside

/-! ### What is stored -/

theorem mem_metaOf_headers {pairs : List (String × String)} {field value : String} :
    (field, value) ∈ (metaOf pairs).headers ↔ field ∈ stdHeaders ∧ value ≠ "" ∧
      ∃ given, pair pairs field = some given ∧
        value = if field = "content-encoding" then dropChunked given else given := by
  constructor
  · intro member
    obtain ⟨name, known, stored⟩ := List.mem_filterMap.mp member
    obtain ⟨given, found, kept⟩ := Option.bind_eq_some_iff.mp stored
    dsimp only at kept
    rw [Option.ite_none_left_eq_some] at kept
    obtain ⟨some', same⟩ := kept
    obtain ⟨rfl, rfl⟩ := Prod.mk.inj (Option.some.inj same)
    exact ⟨known, some', given, found, rfl⟩
  · rintro ⟨known, some', given, found, rfl⟩
    refine List.mem_filterMap.mpr ⟨field, known, ?_⟩
    unfold storedHeader
    rw [found, Option.bind_some]
    exact if_neg some'

theorem userName_eq {field name : String} (named : userName field = some name) :
    field = "x-amz-meta-" ++ name := by
  unfold userName at named
  rw [Option.ite_none_right_eq_some] at named
  obtain ⟨starts, same⟩ := named
  obtain ⟨after, whole⟩ := List.isPrefixOf_iff_prefix.mp starts
  have dropped : field.toList.drop "x-amz-meta-".toList.length = after := by
    rw [← whole, List.drop_left]
  rw [dropped] at same
  refine String.toList_injective ?_
  rw [← Option.some.inj same, String.toList_append, ← whole]
  exact congrArg _ String.toList_ofList.symm

theorem mem_metaOf_user {pairs : List (String × String)} {field name value : String}
    (named : userName field = some name) :
    (name, value) ∈ (metaOf pairs).user ↔ (field, value) ∈ pairs := by
  constructor
  · intro member
    obtain ⟨⟨other, given⟩, inside, stored⟩ := List.mem_filterMap.mp member
    obtain ⟨found, read, same⟩ := Option.map_eq_some_iff.mp stored
    obtain ⟨rfl, rfl⟩ := Prod.mk.inj same
    have both : other = field := (userName_eq read).trans (userName_eq named).symm
    exact both ▸ inside
  · intro inside
    refine List.mem_filterMap.mpr ⟨(field, value), inside, ?_⟩
    rw [named]
    rfl

/-- The object that an upload writes. -/
structure Stored (store : Store) (form : Form) (bucket key : String) (row : ObjectRow) : Prop where
  sse : ∀ entry, entry ∈ row.objMeta.sse ↔
    entry ∈ (metaOf form.fields).sse ∨ ¬ Asked form ∧ entry ∈ defaultSse store bucket
  bucket : row.bucket = bucket
  key : row.key = key
  content : row.content = form.content
  contentType : row.contentType = (form.get "content-type").getD "binary/octet-stream"
  user : row.objMeta.user = (metaOf form.fields).user
  headers : row.objMeta.headers = (metaOf form.fields).headers
  storageClass : row.objMeta.storageClass = form.get "x-amz-storage-class"

theorem mem_metaOf_sse {pairs : List (String × String)} {field value : String} :
    (field, value) ∈ (metaOf pairs).sse ↔ field ∈ sseHeaders ∧ pair pairs field = some value := by
  constructor
  · intro member
    obtain ⟨name, known, stored⟩ := List.mem_filterMap.mp member
    obtain ⟨given, found, same⟩ := Option.map_eq_some_iff.mp stored
    obtain ⟨rfl, rfl⟩ := Prod.mk.inj same
    exact ⟨known, found⟩
  · rintro ⟨known, found⟩
    refine List.mem_filterMap.mpr ⟨field, known, ?_⟩
    rw [found]
    rfl

theorem asked_iff (form : Form) :
    ((metaOf form.fields).sse.any fun entry => entry.1 == sseHeader ||
      entry.1 == "x-amz-server-side-encryption-customer-algorithm") = true ↔ Asked form := by
  rw [List.any_eq_true]
  constructor
  · rintro ⟨⟨field, value⟩, member, named⟩
    have found := (mem_metaOf_sse.mp member).2
    rcases Bool.or_eq_true_iff.mp named with plain | customer
    · obtain rfl : field = sseHeader := beq_iff_eq.mp plain
      exact Or.inl (Option.isSome_iff_exists.mpr ⟨value, found⟩)
    · obtain rfl : field = "x-amz-server-side-encryption-customer-algorithm" := beq_iff_eq.mp customer
      exact Or.inr (Option.isSome_iff_exists.mpr ⟨value, found⟩)
  · rintro (plain | customer)
    · obtain ⟨value, found⟩ := Option.isSome_iff_exists.mp plain
      exact ⟨(sseHeader, value), mem_metaOf_sse.mpr ⟨by decide, found⟩, rfl⟩
    · obtain ⟨value, found⟩ := Option.isSome_iff_exists.mp customer
      exact ⟨(_, value), mem_metaOf_sse.mpr ⟨by decide, found⟩, rfl⟩

/-- **The default encryption of a bucket** changes nothing else, and nothing if the form asks for one. -/
theorem applyDefaultSse_spec (store : Store) (bucket : String) (form : Form) :
    (applyDefaultSse store bucket (metaOf form.fields)).user = (metaOf form.fields).user ∧
      (applyDefaultSse store bucket (metaOf form.fields)).headers = (metaOf form.fields).headers ∧
      (applyDefaultSse store bucket (metaOf form.fields)).storageClass =
        form.get "x-amz-storage-class" ∧
      ∀ entry, entry ∈ (applyDefaultSse store bucket (metaOf form.fields)).sse ↔
        entry ∈ (metaOf form.fields).sse ∨ ¬ Asked form ∧ entry ∈ defaultSse store bucket := by
  have asked := asked_iff form
  unfold applyDefaultSse
  split
  · rename_i given
    refine ⟨rfl, rfl, rfl, fun entry => ⟨Or.inl, fun either => either.elim id fun wrong => ?_⟩⟩
    exact absurd (asked.mp given) wrong.1
  · rename_i none
    have notAsked : ¬ Asked form := fun given => none (asked.mpr given)
    refine ⟨rfl, rfl, rfl, fun entry => ?_⟩
    unfold defaultSse
    cases (configGet store bucket "encryption").bind S3External.encryptionRule with
    | none => simp [notAsked, or_comm]
    | some rule =>
      simp only [List.mem_append, List.mem_cons, notAsked, not_false_eq_true, true_and]
      constructor
      · rintro ((same | inside) | extra)
        · exact Or.inr (Or.inl same)
        · exact Or.inl inside
        · exact Or.inr (Or.inr extra)
      · rintro (inside | same | extra)
        · exact Or.inl (Or.inr inside)
        · exact Or.inl (Or.inl same)
        · exact Or.inr extra

theorem putObject_stored {store after : Store} {bucket key : String} {form : Form} {tags : Tags}
    {now : Int} {result : WriteResult}
    (written : putObject store bucket key form.content
      ((form.get "content-type").getD "binary/octet-stream") (metaOf form.fields) tags now =
        .ok (result, after)) :
    ∃ row ∈ after.objects, row.seq = result.seq ∧ Stored store form bucket key row := by
  obtain ⟨versioning, _, done⟩ := bind_eq_ok written
  obtain ⟨user, headers, storageClass, sse⟩ := applyDefaultSse_spec store bucket form
  obtain ⟨rfl, rfl⟩ := Prod.mk.inj (Except.ok.inj done)
  refine ⟨_, List.mem_append_right _ List.mem_cons_self, rfl, ?_⟩
  exact
    { bucket := rfl, key := rfl, content := rfl, contentType := rfl, user := user,
      headers := headers, storageClass := storageClass, sse := sse }

theorem objectAttrs_ok {pairs : List (String × String)} {attrs : Option String × ObjMeta}
    (read : objectAttrs pairs = .ok attrs) : attrs = (pair pairs "content-type", metaOf pairs) := by
  unfold objectAttrs at read
  dsimp only at read
  split at read
  · cases read
  · split at read
    · cases read
    · exact (Except.ok.inj read).symm

theorem specials_no_user : ∀ field ∈ "bucket" :: "key" :: "content-type" :: "x-amz-storage-class" ::
    stdHeaders ++ sseHeaders, userName field = none := by
  decide

theorem Fair.plain {store : Store} {bucket : String} {form : Form} {field : String}
    {test : String → Bool} (noUser : userName field = none) (notType : field ≠ "content-type")
    (notEncoding : field ≠ "content-encoding") (notSse : field ∉ sseHeaders) :
    Fair store bucket form field test where
  repeated := fun _ named => by rw [noUser] at named; cases named
  contentType := fun isType => absurd isType notType
  encoding := fun isEncoding => absurd isEncoding notEncoding
  encrypted := fun isSse => absurd isSse notSse

section Fields

variable {store : Store} {form : Form} {bucket key : String} {row : ObjectRow} {field : String}
  {test : String → Bool}

theorem fair_contentType (stored : Stored store form bucket key row)
    (passed : test ((form.get "content-type").getD "") = true) :
    test row.contentType = true ↔ Fair store bucket form "content-type" test := by
  rw [stored.contentType]
  constructor
  · intro holds
    exact
      { repeated := fun _ named => by
          rw [specials_no_user "content-type" (by decide)] at named
          cases named
        contentType := fun _ none => by
          rw [none] at holds
          exact holds
        encoding := fun wrong => absurd wrong (by decide)
        encrypted := fun wrong => absurd wrong (by decide) }
  · intro fair
    cases given : form.get "content-type" with
    | none => exact fair.contentType rfl given
    | some value =>
      rw [given] at passed
      exact passed

theorem fair_header (stored : Stored store form bucket key row) (known : field ∈ stdHeaders)
    (passed : test ((form.get field).getD "") = true) :
    (∀ value, (field, value) ∈ row.objMeta.headers → test value = true) ↔
      Fair store bucket form field test := by
  have noUser : userName field = none := specials_no_user field (by simp [known])
  have notType : field ≠ "content-type" := fun same => absurd (same ▸ known) (by decide)
  have notSse : field ∉ sseHeaders := by
    have apart : ∀ name ∈ stdHeaders, name ∉ sseHeaders := by decide
    exact apart field known
  rw [stored.headers]
  constructor
  · intro all
    exact
      { repeated := fun _ named => by rw [noUser] at named; cases named
        contentType := fun isType => absurd isType notType
        encoding := fun isEncoding value given => by
          by_cases empty : dropChunked value = ""
          · exact Or.inl empty
          · refine Or.inr (all _ (mem_metaOf_headers.mpr ⟨known, empty, value, given, ?_⟩))
            rw [if_pos isEncoding]
        encrypted := fun isSse => absurd isSse notSse }
  · intro fair value member
    obtain ⟨_, some', given, found, rfl⟩ := mem_metaOf_headers.mp member
    have read : form.get field = some given := found
    by_cases isEncoding : field = "content-encoding"
    · rw [if_pos isEncoding] at some' ⊢
      exact (fair.encoding isEncoding given read).resolve_left some'
    · rw [if_neg isEncoding]
      rw [read] at passed
      exact passed

theorem fair_sse (stored : Stored store form bucket key row) (known : field ∈ sseHeaders)
    (passed : test ((form.get field).getD "") = true) :
    (∀ value, (field, value) ∈ row.objMeta.sse → test value = true) ↔
      Fair store bucket form field test := by
  have noUser : userName field = none := specials_no_user field (by simp [known])
  have notType : field ≠ "content-type" := fun same => absurd (same ▸ known) (by decide)
  have notEncoding : field ≠ "content-encoding" := fun same => absurd (same ▸ known) (by decide)
  constructor
  · intro all
    exact
      { repeated := fun _ named => by rw [noUser] at named; cases named
        contentType := fun isType => absurd isType notType
        encoding := fun isEncoding => absurd isEncoding notEncoding
        encrypted := fun _ notAsked entry member same => by
          obtain ⟨name, value⟩ := entry
          obtain rfl : name = field := same
          exact all value ((stored.sse _).mpr (Or.inr ⟨notAsked, member⟩)) }
  · intro fair value member
    rcases (stored.sse _).mp member with given | ⟨notAsked, default⟩
    · have read : form.get field = some value := (mem_metaOf_sse.mp given).2
      rw [read] at passed
      exact passed
    · exact fair.encrypted known notAsked _ default rfl

theorem fair_user (stored : Stored store form bucket key row) {name : String}
    (named : userName field = some name) :
    (∀ value, (name, value) ∈ row.objMeta.user → test value = true) ↔
      Fair store bucket form field test := by
  have other : ∀ special ∈ "bucket" :: "key" :: "content-type" :: "x-amz-storage-class" ::
      stdHeaders ++ sseHeaders, field ≠ special := by
    intro special member same
    rw [same, specials_no_user special member] at named
    cases named
  rw [stored.user]
  constructor
  · intro all
    exact
      { repeated := fun suffix again entry member same => by
          obtain ⟨given, value⟩ := entry
          obtain rfl : given = field := same
          exact all value ((mem_metaOf_user named).mpr member)
        contentType := fun isType => absurd isType (other _ (by decide))
        encoding := fun isEncoding => absurd isEncoding (other _ (by decide))
        encrypted := fun isSse => absurd rfl (other field (by simp [isSse])) }
  · intro fair value member
    exact fair.repeated name named _ ((mem_metaOf_user named).mp member) rfl

end Fields

theorem forall_filter {entries : List (String × String)} {name : String} {test : String → Bool} :
    (∀ value ∈ (entries.filter fun entry => entry.1 == name).map Prod.snd, test value = true) ↔
      ∀ value, (name, value) ∈ entries → test value = true := by
  constructor
  · intro all value member
    refine all value (List.mem_map.mpr ⟨(name, value), List.mem_filter.mpr ⟨member, ?_⟩, rfl⟩)
    exact beq_self_eq_true name
  · intro all value member
    obtain ⟨⟨other, given⟩, inside, rfl⟩ := List.mem_map.mp member
    obtain ⟨there, named⟩ := List.mem_filter.mp inside
    obtain rfl : other = name := beq_iff_eq.mp named
    exact all given there

/-- **The stored values of a field**: what passed on the value that was checked holds of all of them
exactly if the field is fair. -/
theorem stored_fair {store : Store} {form : Form} {bucket key : String} {row : ObjectRow}
    (stored : Stored store form bucket key row) {field : String} {test : String → Bool}
    (passed : test (valueOf form bucket key field) = true) :
    (∀ value ∈ storedValues row (fieldName field), test value = true) ↔
      Fair store bucket form (fieldName field) test := by
  unfold valueOf at passed
  unfold storedValues
  generalize fieldName field = name at passed ⊢
  by_cases isBucket : name = "bucket"
  · rw [if_pos isBucket] at passed ⊢
    rw [isBucket, List.forall_mem_singleton, stored.bucket]
    exact iff_of_true passed
      (Fair.plain (specials_no_user _ (by decide)) (by decide) (by decide) (by decide))
  rw [if_neg isBucket] at passed ⊢
  by_cases isKey : name = "key"
  · rw [if_pos isKey] at passed ⊢
    rw [isKey, List.forall_mem_singleton, stored.key]
    exact iff_of_true passed
      (Fair.plain (specials_no_user _ (by decide)) (by decide) (by decide) (by decide))
  rw [if_neg isKey] at passed ⊢
  by_cases isType : name = "content-type"
  · rw [if_pos isType, isType, List.forall_mem_singleton]
    rw [isType] at passed
    exact fair_contentType stored passed
  rw [if_neg isType]
  by_cases isHeader : name ∈ stdHeaders
  · rw [if_pos isHeader, forall_filter]
    exact fair_header stored isHeader passed
  rw [if_neg isHeader]
  by_cases isSse : name ∈ sseHeaders
  · rw [if_pos isSse, forall_filter]
    exact fair_sse stored isSse passed
  rw [if_neg isSse]
  by_cases isClass : name = "x-amz-storage-class"
  · rw [if_pos isClass, stored.storageClass, isClass]
    rw [isClass] at passed
    refine iff_of_true (fun value member => ?_)
      (Fair.plain (specials_no_user _ (by decide)) (by decide) (by decide) (by decide))
    rw [Option.mem_toList.mp member] at passed
    exact passed
  rw [if_neg isClass]
  cases named : userName name with
  | some suffix =>
    dsimp only
    rw [forall_filter]
    exact fair_user stored named
  | none =>
    refine iff_of_true (fun value member => absurd member List.not_mem_nil) ?_
    exact Fair.plain named isType (fun same => isHeader (same ▸ by decide)) isSse

/-- A policy that has no expiration, or one that has not passed. -/
def NotExpired (policy : Json) (now : Int) : Prop :=
  ∀ text, (policy.get "expiration").bind Json.asStr = some text →
    ∃ expiration, PostParser.rfc3339 text = some expiration ∧ now ≤ expiration

theorem checkExpiration_ok {policy : Json} {now : Int} (passed : checkExpiration policy now = .ok ()) :
    NotExpired policy now := by
  intro text given
  unfold checkExpiration at passed
  rw [given] at passed
  dsimp only at passed
  split at passed
  · cases passed
  · rename_i expiration read
    split at passed
    · cases passed
    · rename_i notBefore
      exact ⟨expiration, read, not_lt.mp notBefore⟩

theorem post_spec {store : Store} {bucket : String} {fields : List FormField} {form : Form} {now : Int}
    (read : readForm fields = .ok form) {text : String} (given : form.get "policy" = some text)
    {result : WriteResult} (uploaded : (post store bucket fields now).1 = .ok result) :
    ∃ policy asked, form.get "key" = some asked ∧ documentOf text = .ok policy ∧
      NotExpired policy now ∧
      (∀ condition ∈ conditionsOf policy,
        checkCondition form bucket (keyOf asked form.filename) condition = .ok ()) ∧
      ∃ row ∈ (post store bucket fields now).2.objects, row.seq = result.seq ∧
        Stored store form bucket (keyOf asked form.filename) row := by
  cases outcome : (readForm fields).bind fun form => postObject store bucket form now with
  | error error =>
    unfold post at uploaded
    rw [outcome] at uploaded
    cases uploaded
  | ok both =>
    obtain ⟨written, after⟩ := both
    have whole : post store bucket fields now = (.ok written, after) := by
      unfold post
      rw [outcome]
    rw [whole] at uploaded ⊢
    obtain rfl : written = result := Except.ok.inj uploaded
    obtain ⟨other, same, done⟩ := bind_eq_ok outcome
    obtain rfl : form = other := Except.ok.inj (read.symm.trans same)
    unfold postObject at done
    split at done
    · cases done
    rename_i asked key
    dsimp only at done
    split at done
    · cases done
    obtain ⟨_, checked, rest⟩ := bind_eq_ok done
    obtain ⟨attrs, attributes, rest⟩ := bind_eq_ok rest
    obtain ⟨tags, _, put⟩ := bind_eq_ok rest
    rw [objectAttrs_ok attributes] at put
    obtain ⟨row, member, seq, stored⟩ := putObject_stored put
    unfold checkGiven at checked
    rw [given] at checked
    obtain ⟨policy, document, checked⟩ := bind_eq_ok checked
    obtain ⟨_, expiration, conditions⟩ := bind_eq_ok checked
    exact ⟨policy, asked, key, document, checkExpiration_ok expiration, checkConditions_ok conditions,
      row, member, seq, stored⟩

/-- **The stored object satisfies a condition of the policy** exactly if the condition is checked on
all that is stored; and an upload that fails, as by a condition, stores nothing. -/
theorem policy_holds (store : Store) (bucket : String) (fields : List FormField) (form : Form)
    (now : Int) (text : String) (read : readForm fields = .ok form)
    (given : form.get "policy" = some text) :
    (∀ result, (post store bucket fields now).1 = .ok result →
      ∃ policy, documentOf text = .ok policy ∧ NotExpired policy now ∧
        ∃ row ∈ (post store bucket fields now).2.objects, row.seq = result.seq ∧
          row.bucket = bucket ∧
          (∃ asked, form.get "key" = some asked ∧ row.key = keyOf asked form.filename) ∧
          ∀ condition ∈ conditionsOf policy,
            (Satisfied row condition ↔ Checked store bucket form condition)) ∧
    (∀ policy asked, documentOf text = .ok policy → form.get "key" = some asked →
      (∃ condition ∈ conditionsOf policy,
        checkCondition form bucket (keyOf asked form.filename) condition ≠ .ok ()) →
      (post store bucket fields now).2 = store) ∧
    ∀ error, (post store bucket fields now).1 = .error error →
      (post store bucket fields now).2 = store := by
  have failed : ∀ error, (post store bucket fields now).1 = .error error →
      (post store bucket fields now).2 = store := by
    intro error refused
    unfold post at refused ⊢
    split at refused
    · cases refused
    · rfl
  refine ⟨fun result uploaded => ?_, fun policy asked document key fails => ?_, failed⟩
  · obtain ⟨policy, asked, key, document, live, passed, row, member, seq, stored⟩ :=
      post_spec read given uploaded
    refine ⟨policy, document, live, row, member, seq, stored.bucket, ⟨asked, key, stored.key⟩, ?_⟩
    intro condition inside
    obtain ⟨tests, size⟩ := checkCondition_ok (passed condition inside)
    rw [← stored.content] at size
    constructor
    · exact fun satisfied =>
        { fields := fun entry member => (stored_fair stored (tests entry member)).mp
            (satisfied.1 entry member)
          bounds := fun low high range => (size low high range).mp (satisfied.2 low high range) }
    · exact fun checked =>
        ⟨fun entry member => (stored_fair stored (tests entry member)).mpr
            (checked.fields entry member),
          fun low high range => (size low high range).mpr (checked.bounds low high range)⟩
  · cases outcome : (post store bucket fields now).1 with
    | error error => exact failed error outcome
    | ok result =>
      obtain ⟨other, asked', key', document', _, passed, _⟩ := post_spec read given outcome
      obtain rfl : other = policy := Except.ok.inj (document'.symm.trans document)
      obtain rfl : asked' = asked := Option.some.inj (key'.symm.trans key)
      obtain ⟨condition, inside, fails⟩ := fails
      exact absurd (passed condition inside) fails

end External

/-! ### A field given twice -/

section Sample

attribute [local instance] External.sample S3External.sample

/-- `["eq", "$x-amz-meta-a", "u"]`. -/
def sampleCondition : Json := .arr [.str "eq", .str "$x-amz-meta-a", .str "u"]

/-- The condition in a policy, as a form sends it. -/
def policyText : String := "eyJjb25kaXRpb25zIjpbWyJlcSIsIiR4LWFtei1tZXRhLWEiLCJ1Il1dfQ=="

def policyBytes : List UInt8 := utf8 "\x7b\"conditions\":[[\"eq\",\"$x-amz-meta-a\",\"u\"]]\x7d"

/-- Parsers that read this policy. -/
@[reducible]
def PostParser.sample : PostParser where
  text field := fromUtf8Lossy field.content
  base64 text := if text = policyText then some policyBytes else none
  json raw := if raw = policyBytes then some (.obj [("conditions", .arr [sampleCondition])]) else none
  rfc3339 _ := none
  tagging _ := .ok []
  tagQuery _ := .ok []

attribute [local instance] PostParser.sample

theorem document_sample :
    documentOf policyText = .ok (.obj [("conditions", .arr [sampleCondition])]) := by
  have trimmed : trim policyText = policyText := by decide
  have decoded : PostParser.base64 policyText = some policyBytes := if_pos rfl
  have read : PostParser.json policyBytes = some (.obj [("conditions", .arr [sampleCondition])]) := if_pos rfl
  unfold documentOf
  rw [trimmed, decoded]
  dsimp only
  rw [read]

def textField (name value : String) : FormField where
  name := some name
  fileName := none
  contentType := none
  content := utf8 value

def fileField : FormField where
  name := some "file"
  fileName := some "f"
  contentType := none
  content := [104, 105]

def oneBucket : Store := { Store.empty with buckets := ["b"] }

def onceFields : List FormField :=
  [textField "key" "k", textField "policy" policyText, textField "x-amz-meta-a" "u", fileField]

def twiceFields : List FormField :=
  [textField "key" "k", textField "policy" policyText, textField "x-amz-meta-a" "u",
    textField "x-amz-meta-a" "v", fileField]

/-- The stored object of a form that gives the field once. -/
theorem policy_holds_once : ∃ result, (post oneBucket "b" onceFields 0).1 = .ok result ∧
    ∃ policy, documentOf policyText = .ok policy ∧ NotExpired policy 0 ∧
      ∃ row ∈ (post oneBucket "b" onceFields 0).2.objects, row.seq = result.seq ∧
        ∀ condition ∈ conditionsOf policy,
          Satisfied row condition ↔
            Checked oneBucket "b"
              ⟨[("key", "k"), ("policy", policyText), ("x-amz-meta-a", "u")], "f", [104, 105]⟩ condition := by
  have done : ((post oneBucket "b" onceFields 0).1.toOption).isSome = true := by decide
  cases outcome : (post oneBucket "b" onceFields 0).1 with
  | error error =>
    rw [outcome] at done
    cases done
  | ok result =>
    obtain ⟨policy, document, live, row, member, seq, _, _, holds⟩ :=
      (policy_holds oneBucket "b" onceFields
        ⟨[("key", "k"), ("policy", policyText), ("x-amz-meta-a", "u")], "f", [104, 105]⟩ 0 policyText
        (by decide) (by decide)).1 result outcome
    exact ⟨result, rfl, policy, document, live, row, member, seq, holds⟩

/-- **A field given twice**: the first value is checked, and both are stored. -/
theorem repeated_meta_unchecked : ∃ result row, (post oneBucket "b" twiceFields 0).1 = .ok result ∧
    row ∈ (post oneBucket "b" twiceFields 0).2.objects ∧ row.seq = result.seq ∧
      ∃ policy, documentOf policyText = .ok policy ∧ sampleCondition ∈ conditionsOf policy ∧
        ¬ Satisfied row sampleCondition := by
  have done : ((post oneBucket "b" twiceFields 0).1.toOption).isSome = true := by decide
  have read : readForm twiceFields = .ok ⟨[("key", "k"), ("policy", policyText), ("x-amz-meta-a", "u"),
      ("x-amz-meta-a", "v")], "f", [104, 105]⟩ := by decide
  have given : Form.get ⟨[("key", "k"), ("policy", policyText), ("x-amz-meta-a", "u"),
      ("x-amz-meta-a", "v")], "f", [104, 105]⟩ "policy" = some policyText := by decide
  cases outcome : (post oneBucket "b" twiceFields 0).1 with
  | error error =>
    rw [outcome] at done
    cases done
  | ok result =>
    obtain ⟨policy, asked, _, document, _, passed, row, member, seq, stored⟩ :=
      post_spec read given outcome
    obtain rfl : .obj [("conditions", .arr [sampleCondition])] = policy := Except.ok.inj (document_sample.symm.trans document)
    have inside : sampleCondition ∈ conditionsOf (.obj [("conditions", .arr [sampleCondition])]) :=
      List.mem_cons_self
    refine ⟨result, row, rfl, member, seq, _, document_sample, inside, fun satisfied => ?_⟩
    have about : ("$x-amz-meta-a", fieldTest "eq" "$x-amz-meta-a" "u") ∈ fieldTests sampleCondition := by
      have lower : toAsciiLowercase "eq" = "eq" := by decide
      have shape : fieldTests sampleCondition =
          if toAsciiLowercase "eq" = "eq" ∨ toAsciiLowercase "eq" = "starts-with" then
            [("$x-amz-meta-a", fieldTest (toAsciiLowercase "eq") "$x-amz-meta-a" "u")]
          else [] := rfl
      rw [shape, if_pos (Or.inl lower), lower]
      exact List.mem_singleton_self _
    have tests := (checkCondition_ok (passed _ inside)).1 _ about
    have fair := (stored_fair stored tests).mp (satisfied.1 _ about)
    have wrong := fair.repeated "a" (by decide) ("x-amz-meta-a", "v") (by decide)
      (by decide)
    exact absurd wrong (by decide)

end Sample

end CloudTwin.S3.PostPolicy
