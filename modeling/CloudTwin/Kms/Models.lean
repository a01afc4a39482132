/-
**The KMS keys and aliases** (`aws/kms/models.rs`, `service.rs`, `schema.rs`).

The rows of the two tables, the four ways to name a key, and the checks on keys. Times are in
milliseconds. The tags of a key are kept as the list that their JSON text stands for.

* `KmsKey`, `KmsAlias`, `Store` — the data.
* `parseKeyRef` — a key id, a key ARN, an alias or an alias ARN.
* `buildKey` — the key that `CreateKey` makes.
* The calls on the database: `purgeExpired`, `loadKey`, `getAlias`, `save` and the writes of keys and
  aliases.
-/

import CloudTwin.External
import CloudTwin.Lib.Transaction

namespace CloudTwin.Kms

open Lib Lib.Text

set_option linter.unusedSectionVars false

/-! ### Errors -/

inductive KmsError where
  | notFound (message : String)
  | alreadyExists (message : String)
  | disabled (message : String)
  | invalidState (message : String)
  | invalidCiphertext (message : String)
  | invalidKeyUsage (message : String)
  | incorrectKey (message : String)
  | validation (message : String)
  | unsupported (message : String)
  | invalidAliasName (message : String)
  | malformedPolicy (message : String)
  | internal (message : String)
  deriving DecidableEq

abbrev KmsResult := Except KmsError

/-! ### Data -/

/-- The `key_state` column. -/
inductive KeyState where
  | enabled
  | disabled
  | pendingDeletion
  deriving DecidableEq

def KeyState.text : KeyState → String
  | .enabled => "Enabled"
  | .disabled => "Disabled"
  | .pendingDeletion => "PendingDeletion"

/-- A row of `kms_keys`. -/
structure KmsKey where
  id : String
  description : String
  keyUsage : String
  keySpec : String
  origin : String
  keyState : KeyState
  createdAt : Int
  deletionDate : Option Int
  pendingWindowDays : Option Int
  material : Option (List UInt8)
  rotationEnabled : Bool
  rotationPeriodDays : Int
  policy : String
  tags : List (String × String)
  multiRegion : Bool
  deriving DecidableEq

/-- A row of `kms_aliases`. -/
structure KmsAlias where
  name : String
  targetKeyId : String
  createdAt : Int
  updatedAt : Int
  deriving DecidableEq

structure Store where
  keys : List KmsKey
  aliases : List KmsAlias
  deriving DecidableEq

def Store.empty : Store where
  keys := []
  aliases := []

def keyArn (id : String) : String :=
  "arn:aws:kms:us-east-1:000000000000:key/" ++ id

def aliasArn (name : String) : String :=
  "arn:aws:kms:us-east-1:000000000000:" ++ name

def KmsKey.arn (key : KmsKey) : String :=
  keyArn key.id

def KmsKey.isSymmetric (key : KmsKey) : Bool :=
  key.keySpec == "SYMMETRIC_DEFAULT"

/-! ### Checks -/

def notFoundKey (id : String) : KmsError :=
  .notFound ("Key '" ++ keyArn id ++ "' does not exist")

def notFoundAlias (name : String) : KmsError :=
  .notFound ("Alias " ++ aliasArn name ++ " is not found.")

def invalidState (key : KmsKey) : KmsError :=
  .invalidState (key.arn ++ " is pending deletion.")

/-- Fails unless the key is in a state that permits configuration changes. -/
def requireNotPending (key : KmsKey) : KmsResult Unit :=
  rejectIf (key.keyState = .pendingDeletion) (invalidState key)

/-- Fails unless the key is enabled (cryptographic operations). -/
def requireEnabled (key : KmsKey) : KmsResult Unit :=
  match key.keyState with
  | .enabled => .ok ()
  | .disabled => .error (.disabled (key.arn ++ " is disabled."))
  | .pendingDeletion => .error (invalidState key)

/-- Fails unless the key can perform symmetric encrypt/decrypt. -/
def requireSymmetricCrypto (key : KmsKey) : KmsResult Unit := do
  requireEnabled key
  rejectIf (key.keyUsage ≠ "ENCRYPT_DECRYPT")
    (.invalidKeyUsage (key.arn ++ " key usage is " ++ key.keyUsage ++
      " which is not valid for this operation."))
  rejectIf (key.isSymmetric = false ∨ key.material.map List.length ≠ some 32)
    (.unsupported (key.arn ++ " has key spec " ++ key.keySpec ++
      "; only SYMMETRIC_DEFAULT keys are supported for this operation by CloudTwin."))

/-- The characters of an alias name after its prefix. -/
def isAliasChar (char : Char) : Bool :=
  isAsciiAlphanumeric char || char == '/' || char == '_' || char == '-'

def aliasPrefixError (name : String) : KmsError :=
  .invalidAliasName ("Alias must start with the prefix \"alias/\": " ++ name)

def validateAliasName (name : String) : KmsResult Unit := do
  rejectIf (startsWith name "alias/" = false) (aliasPrefixError name)
  rejectIf (startsWith name "alias/aws/" = true)
    (.invalidAliasName "Alias names that begin with \"alias/aws/\" are reserved.")
  let rest := name.toList.drop 6
  rejectIf (rest.isEmpty ∨ 256 < (utf8 name).length ∨ rest.all isAliasChar = false)
    (.invalidAliasName ("Alias name " ++ name ++
      " must satisfy regular expression pattern: ^alias/[a-zA-Z0-9/_-]+$"))

/-! ### References -/

inductive KeyRef where
  | id (id : String)
  | alias (name : String)
  deriving DecidableEq

/-- What follows the given number of colons: `splitn(count + 1, ':').nth(count)`. -/
def afterColons : Nat → List Char → Option (List Char)
  | 0, chars => some chars
  | _ + 1, [] => none
  | count + 1, char :: rest =>
    if char = ':' then afterColons count rest else afterColons (count + 1) rest

def parseKeyRef (keyRef : String) : KmsResult KeyRef := do
  let r := trim keyRef
  rejectIf (r.isEmpty) (.validation "KeyId must not be empty")
  if startsWith r "arn:" then
    -- arn:aws:kms:<region>:<account>:key/<id> | alias/<name>
    let resource := String.ofList ((afterColons 4 (r.toList.drop 4)).getD [])
    if startsWith resource "key/" then .ok (.id (String.ofList (resource.toList.drop 4)))
    else if startsWith resource "alias/" then .ok (.alias resource)
    else .error (.notFound ("Invalid keyId " ++ r))
  else if startsWith r "alias/" then .ok (.alias r)
  else .ok (.id r)

/-! ### Calls on the database -/

/-- The key is to be deleted, and its date has passed. -/
def KmsKey.isExpired (key : KmsKey) (now : Int) : Bool :=
  key.keyState == .pendingDeletion && key.deletionDate.any (· ≤ now)

/-- Delete keys whose scheduled deletion date has passed, with their aliases. -/
def purgeExpired (store : Store) (now : Int) : Store :=
  let expired := (store.keys.filter fun key => key.isExpired now).map KmsKey.id
  { aliases := store.aliases.filter fun row => !expired.contains row.targetKeyId
    keys := store.keys.filter fun key => !key.isExpired now }

def loadKey (store : Store) (id : String) : Option KmsKey :=
  store.keys.find? fun key => key.id == id

def getAlias (store : Store) (name : String) : Option KmsAlias :=
  store.aliases.find? fun row => row.name == name

/-- The columns that `UPDATE kms_keys SET ..` writes. -/
def KmsKey.written (row key : KmsKey) : KmsKey :=
  { row with
    description := key.description
    keyState := key.keyState
    deletionDate := key.deletionDate
    pendingWindowDays := key.pendingWindowDays
    rotationEnabled := key.rotationEnabled
    rotationPeriodDays := key.rotationPeriodDays
    policy := key.policy
    tags := key.tags }

def save (store : Store) (key : KmsKey) : Store :=
  { store with
    keys := store.keys.map fun row => if row.id = key.id then row.written key else row }

/-- `INSERT OR IGNORE INTO kms_keys`; `none` when the id is taken. -/
def insertKey (store : Store) (key : KmsKey) : Option Store :=
  if (loadKey store key.id).isSome then none
  else some { store with keys := store.keys ++ [key] }

/-- `INSERT OR IGNORE INTO kms_aliases`; `none` when the name is taken. -/
def insertAlias (store : Store) (row : KmsAlias) : Option Store :=
  if (getAlias store row.name).isSome then none
  else some { store with aliases := store.aliases ++ [row] }

/-- `UPDATE kms_aliases SET target_key_id = ?2, updated_at = ?3 WHERE name = ?1`. -/
def moveAlias (store : Store) (row : KmsAlias) : Store :=
  { store with
    aliases := store.aliases.map fun other =>
      if other.name = row.name then
        { other with targetKeyId := row.targetKeyId, updatedAt := row.updatedAt }
      else other }

/-- `DELETE FROM kms_aliases WHERE name = ?1`; `none` when there is none. -/
def removeAlias (store : Store) (name : String) : Option Store :=
  if (getAlias store name).isNone then none
  else some { store with aliases := store.aliases.filter fun row => row.name != name }

/-! ### New keys -/

section External

variable [External]

def keySpecs : List String :=
  ["SYMMETRIC_DEFAULT", "RSA_2048", "RSA_3072", "RSA_4096", "ECC_NIST_P256", "ECC_NIST_P384",
    "ECC_NIST_P521", "ECC_SECG_P256K1", "HMAC_224", "HMAC_256", "HMAC_384", "HMAC_512", "SM2"]

def keyUsages : List String :=
  ["ENCRYPT_DECRYPT", "SIGN_VERIFY", "GENERATE_VERIFY_MAC", "KEY_AGREEMENT"]

/-- `{VALUES:?}` for a list of texts without characters to escape. -/
def debugList (texts : List String) : String :=
  "[" ++ String.intercalate ", " (texts.map fun text => "\"" ++ text ++ "\"") ++ "]"

def enumError (value field : String) (values : List String) : KmsError :=
  .validation ("1 validation error detected: Value '" ++ value ++ "' at '" ++ field ++
    "' failed to satisfy constraint: Member must satisfy enum value set: " ++ debugList values)

def validatePolicy (policy : String) : KmsResult Unit :=
  match External.jsonFromStr policy with
  | some (.obj _) => .ok ()
  | _ => .error (.malformedPolicy "The policy document is not valid JSON.")

def defaultPolicy : String :=
  External.jsonToString (.obj [("Id", .str "key-default-1"),
    ("Statement", .arr [.obj [("Action", .str "kms:*"), ("Effect", .str "Allow"),
      ("Principal", .obj [("AWS", .str "arn:aws:iam::000000000000:root")]), ("Resource", .str "*"),
      ("Sid", .str "Enable IAM User Permissions")]]),
    ("Version", .str "2012-10-17")])

/-- The value of the key's own entry, or a new entry at the end. -/
def setTag (tags : List (String × String)) (tag : String × String) : List (String × String) :=
  if tags.any fun other => other.1 == tag.1 then
    tags.map fun other => if other.1 = tag.1 then tag else other
  else tags ++ [tag]

def dedupeTags (tags : List (String × String)) : List (String × String) :=
  tags.foldl setTag []

structure CreateKeyInput where
  id : Option String
  description : Option String
  keyUsage : Option String
  keySpec : Option String
  origin : Option String
  policy : Option String
  tags : List (String × String)
  multiRegion : Bool
  /-- Explicit key material (seeded keys); random when `none`. -/
  material : Option (List UInt8)

def defaultUsage (keySpec : String) : String :=
  if startsWith keySpec "HMAC_" then "GENERATE_VERIFY_MAC"
  else if startsWith keySpec "ECC_" then "SIGN_VERIFY"
  else "ENCRYPT_DECRYPT"

def isCompatible (keySpec keyUsage : String) : Bool :=
  if keySpec == "SYMMETRIC_DEFAULT" then keyUsage == "ENCRYPT_DECRYPT"
  else if startsWith keySpec "HMAC_" then keyUsage == "GENERATE_VERIFY_MAC"
  else if startsWith keySpec "RSA_" then keyUsage == "ENCRYPT_DECRYPT" || keyUsage == "SIGN_VERIFY"
  else if keySpec == "SM2" then keyUsage != "GENERATE_VERIFY_MAC"
  else keyUsage == "SIGN_VERIFY" || keyUsage == "KEY_AGREEMENT"

def descriptionTooLong : KmsError :=
  .validation "Description must be at most 8192 characters"

/-- The values that a request draws: an id, and 64 random bytes. -/
structure Drawn where
  uuid : String
  bytes : List UInt8

/-- The key that `CreateKey` inserts. -/
def buildKey (input : CreateKeyInput) (drawn : Drawn) (now : Int) : KmsResult KmsKey := do
  let keySpec := input.keySpec.getD "SYMMETRIC_DEFAULT"
  rejectIf (keySpecs.contains keySpec = false) (enumError keySpec "keySpec" keySpecs)
  let keyUsage := input.keyUsage.getD (defaultUsage keySpec)
  rejectIf (keyUsages.contains keyUsage = false) (enumError keyUsage "keyUsage" keyUsages)
  rejectIf (isCompatible keySpec keyUsage = false)
    (.validation ("KeyUsage " ++ keyUsage ++ " is not compatible with KeySpec " ++ keySpec))
  let origin := input.origin.getD "AWS_KMS"
  rejectIf (origin ≠ "AWS_KMS")
    (.unsupported ("Origin " ++ origin ++ " is not supported by CloudTwin; only AWS_KMS is."))
  let description := input.description.getD ""
  rejectIf (8192 < (utf8 description).length) descriptionTooLong
  input.policy.elim (.ok ()) validatePolicy
  return {
    id := input.id.getD drawn.uuid
    description := description
    keyUsage := keyUsage
    keySpec := keySpec
    origin := origin
    keyState := .enabled
    createdAt := now
    deletionDate := none
    pendingWindowDays := none
    material :=
      if keySpec = "SYMMETRIC_DEFAULT" then some (input.material.getD (drawn.bytes.take 32))
      else if startsWith keySpec "HMAC_" then some drawn.bytes
      else none
    rotationEnabled := false
    rotationPeriodDays := 365
    policy := input.policy.getD defaultPolicy
    tags := dedupeTags input.tags
    multiRegion := input.multiRegion }

end External

end CloudTwin.Kms
