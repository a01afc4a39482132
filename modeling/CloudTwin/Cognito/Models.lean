/-
**Cognito records** (`aws/cognito/models.rs`, `aws/cognito/schema.rs`) and what the service takes
from outside the repository.

`Store` is the part of the database that Cognito owns. A pool and a client keep their settings as
the JSON document they were created with. Attributes of a user are texts in key order. Columns that
no modelled operation reads (`modified`, a pool's `domain`, the `created` columns but the users')
are left out.

All times are epoch milliseconds: `now_f()` is the reading itself, `now_i()` the whole seconds.
-/

import CloudTwin.External
import Mathlib.Data.List.Sort
import Std.Data.ExtTreeMap.Lemmas

namespace CloudTwin

/-- `Value::as_bool`. -/
def Json.asBool : Json → Option Bool
  | .bool value => some value
  | _ => none

/-- `Value::as_u64`. -/
def Json.asU64 : Json → Option Nat
  | .num value => if 0 ≤ value ∧ value < 2 ^ 64 then some value.toNat else none
  | _ => none

end CloudTwin

namespace CloudTwin.Cognito

open Lib Lib.Text

structure CogError where
  code : String
  msg : String
  deriving DecidableEq

abbrev CResult := Except CogError

def err (code msg : String) : CogError where
  code := code
  msg := msg

def notAuthorized (msg : String) : CogError :=
  err "NotAuthorizedException" msg

def badCredentials : String := "Incorrect username or password."

/-- `Map<String, Value>` of texts, in key order. -/
abbrev Attributes := Std.ExtTreeMap String String compare

/-- The claims of a token. -/
abbrev Claims := Std.ExtTreeMap String Json compare

theorem getElem_insert {α : Type} (map : Std.ExtTreeMap String α compare) (name other : String)
    (value : α) :
    (map.insert name value)[other]? = if name = other then some value else map[other]? := by
  rw [Std.ExtTreeMap.getElem?_insert]
  simp only [Std.LawfulEqCmp.compare_eq_iff_eq]

theorem getElem_erase {α : Type} (map : Std.ExtTreeMap String α compare) (name other : String) :
    (map.erase name)[other]? = if name = other then none else map[other]? := by
  rw [Std.ExtTreeMap.getElem?_erase]
  simp only [Std.LawfulEqCmp.compare_eq_iff_eq]

/-- `str_list`. -/
def strList (value : Option Json) : List String :=
  match value with
  | some (.arr items) => items.filterMap Json.asStr
  | _ => []

/-! ### Pools and clients -/

structure Pool where
  id : String
  name : String
  data : Json

structure PasswordPolicy where
  minLength : Nat
  upper : Bool
  lower : Bool
  numbers : Bool
  symbols : Bool

namespace Pool

def usernameAttributes (pool : Pool) : List String :=
  strList (pool.data.get "UsernameAttributes")

def aliasAttributes (pool : Pool) : List String :=
  strList (pool.data.get "AliasAttributes")

def autoVerified (pool : Pool) : List String :=
  strList (pool.data.get "AutoVerifiedAttributes")

def emailIsUsername (pool : Pool) : Bool :=
  pool.usernameAttributes.any (· == "email")

def caseSensitive (pool : Pool) : Bool :=
  (((pool.data.get "UsernameConfiguration").bind (·.get "CaseSensitive")).bind
    Json.asBool).getD false

def adminCreateOnly (pool : Pool) : Bool :=
  (((pool.data.get "AdminCreateUserConfig").bind (·.get "AllowAdminCreateUserOnly")).bind
    Json.asBool).getD false

def passwordPolicy (pool : Pool) : PasswordPolicy :=
  match (pool.data.get "Policies").bind (·.get "PasswordPolicy") with
  | some policy =>
    { minLength := ((policy.get "MinimumLength").bind Json.asU64).getD 8
      upper := ((policy.get "RequireUppercase").bind Json.asBool).getD false
      lower := ((policy.get "RequireLowercase").bind Json.asBool).getD false
      numbers := ((policy.get "RequireNumbers").bind Json.asBool).getD false
      symbols := ((policy.get "RequireSymbols").bind Json.asBool).getD false }
  | none => { minLength := 8, upper := true, lower := true, numbers := true, symbols := true }

end Pool

structure Client where
  clientId : String
  poolId : String
  name : String
  secret : Option String
  data : Json

/-- Token kinds with independently configurable lifetimes. -/
inductive TokenKind where
  | id
  | access
  | refresh

/-- The lifetimes of `CognitoConfig`, the issuer and the base URL of a request (`Ctx`). -/
structure Ctx where
  issuerBase : String
  idTokenTtlSeconds : Option Nat
  accessTokenTtlSeconds : Option Nat
  refreshTokenTtlSeconds : Option Nat

def Ctx.issuer (ctx : Ctx) (poolId : String) : String :=
  ctx.issuerBase ++ "/" ++ poolId

namespace Client

def list (client : Client) (key : String) : List String :=
  strList (client.data.get key)

def preventUserExistenceErrors (client : Client) : Bool :=
  (client.data.get "PreventUserExistenceErrors").bind Json.asStr == some "ENABLED"

/-- Clients created without explicit flows accept every password flow. -/
def allowsFlow (client : Client) (allowName legacy : String) : Bool :=
  let flows := client.list "ExplicitAuthFlows"
  flows.isEmpty || flows.any fun flow => flow == allowName || flow == legacy

def authSessionMinutes (client : Client) : Int :=
  ((client.data.get "AuthSessionValidity").bind Json.asI64).getD 3

/-- Client setting, then config override, then Cognito default. -/
def ttlOf (client : Client) (field unitField defaultUnit : String) (configured : Option Nat)
    (default : Int) : Int :=
  match (client.data.get field).bind Json.asI64 with
  | some value =>
    let unit := (((client.data.get "TokenValidityUnits").bind (·.get unitField)).bind
      Json.asStr).getD defaultUnit
    value * match unit with
      | "seconds" => 1
      | "minutes" => 60
      | "hours" => 3600
      | _ => 86400
  | none =>
    match configured with
    | some seconds => seconds
    | none => default

/-- Token lifetime in seconds. -/
def ttl (client : Client) (kind : TokenKind) (ctx : Ctx) : Int :=
  match kind with
  | .id => client.ttlOf "IdTokenValidity" "IdToken" "hours" ctx.idTokenTtlSeconds 3600
  | .access =>
    client.ttlOf "AccessTokenValidity" "AccessToken" "hours" ctx.accessTokenTtlSeconds 3600
  | .refresh =>
    client.ttlOf "RefreshTokenValidity" "RefreshToken" "days" ctx.refreshTokenTtlSeconds
      (30 * 86400)

end Client

/-! ### Users -/

inductive UserStatus where
  | unconfirmed
  | confirmed
  | forceChangePassword
  | resetRequired
  deriving DecidableEq

/-- The text of the `status` column. -/
def UserStatus.text : UserStatus → String
  | .unconfirmed => "UNCONFIRMED"
  | .confirmed => "CONFIRMED"
  | .forceChangePassword => "FORCE_CHANGE_PASSWORD"
  | .resetRequired => "RESET_REQUIRED"

structure User where
  poolId : String
  username : String
  sub : String
  attributes : Attributes
  passwordHash : Option String
  passwordSalt : Option String
  status : UserStatus
  enabled : Bool
  created : Int
  tokensValidAfter : Int

def User.attr (user : User) (name : String) : Option String :=
  if name = "sub" then some user.sub else user.attributes[name]?

/-- The primary key of `cognito_users`. -/
def User.Is (user : User) (poolId username : String) : Prop :=
  user.poolId = poolId ∧ user.username = username

instance (user : User) (poolId username : String) : Decidable (user.Is poolId username) :=
  inferInstanceAs (Decidable (_ ∧ _))

/-! ### Rows -/

/-- What an authorization code stands for. -/
structure AuthCode where
  clientId : String
  username : String
  redirectUri : String
  scope : String
  codeChallenge : Option String
  codeChallengeMethod : Option String
  nonce : Option String
  authTime : Int

structure AuthCodeRow where
  code : String
  poolId : String
  issued : AuthCode
  expiresAt : Int
  used : Bool

structure SessionRow where
  id : String
  poolId : String
  username : String
  authTime : Int
  expiresAt : Int

structure OriginRow where
  originJti : String
  poolId : String
  clientId : String
  username : String
  revoked : Bool

structure RefreshRow where
  token : String
  poolId : String
  clientId : String
  username : String
  originJti : String
  scope : String
  authTime : Int
  expiresAt : Int
  revoked : Bool

structure ChallengeRow where
  session : String
  poolId : String
  clientId : String
  username : String
  challenge : String
  expiresAt : Int

/-- A verification code; `(pool_id, username, kind)` is the primary key. -/
structure CodeRow where
  poolId : String
  username : String
  kind : String
  code : String
  expiresAt : Int

structure Store where
  pools : List Pool
  clients : List Client
  users : List User
  authCodes : List AuthCodeRow
  sessions : List SessionRow
  origins : List OriginRow
  refreshTokens : List RefreshRow
  challenges : List ChallengeRow
  codes : List CodeRow
  drawn : Nat

def Store.empty : Store where
  pools := []
  clients := []
  users := []
  authCodes := []
  sessions := []
  origins := []
  refreshTokens := []
  challenges := []
  codes := []
  drawn := 0

/-! ### What the service takes from outside the repository -/

/-- **Random values, digests, signatures and character classes.** The `n`-th value of a stream is
the one drawn after `n` other random values. -/
class Crypto where
  /-- `random_token`, for session ids, challenges and refresh tokens. -/
  randomToken : Nat → String
  /-- `six_digit_code`. -/
  sixDigitCode : Nat → String
  /-- The hexadecimal salt of `set_password_fields`. -/
  salt : Nat → String
  /-- `generate_password`. -/
  generatePassword : PasswordPolicy → Nat → String
  /-- `new_pool_id`, `new_client_id` and `new_client_secret`. -/
  poolId : Nat → String
  clientId : Nat → String
  clientSecret : Nat → String
  /-- `URL_SAFE_NO_PAD.encode(Sha256::digest(..))`. -/
  sha256Url : List UInt8 → String
  /-- `SigningKeys::sign` and `SigningKeys::verify`. -/
  sign : Claims → String
  verify : String → Option Claims
  /-- `char::is_uppercase`, `char::is_lowercase` and `char::is_alphanumeric`. -/
  isUppercase : Char → Bool
  isLowercase : Char → Bool
  isAlphanumeric : Char → Bool

/-- **What the service relies on**: no random token twice. -/
structure CryptoLaws (crypto : Crypto) : Prop where
  fresh : Function.Injective crypto.randomToken

/-! ### An instance -/

def sampleSalt : String := "00000000000000000000000000000000"

/-- The digests of some passwords with the sample salt. -/
def sampleDigests : List (String × String) :=
  [("temporary",
      "9048beb11418143f92d1dd94f8d7c9f6708a0bb9354f2c6fd469c5749649b5fd"),
    ("password",
      "11f58ae1994757037e028336aadc0624adb9b2758ad21b727fe167a3817cd147"),
    ("changed",
      "1dbb0dc2ad1b8ffe6ba5fe88717180b5e87fc2ab4b3a99c52d441b777ea23528"),
    ("wrong",
      "ec08eefd2bf82b3a3f359341460d881eb50c5454381868676db722f15a68c67d")]

/-- Crates that know these digests. -/
@[reducible]
def sampleExternal : External where
  jsonFromStr := External.sample.jsonFromStr
  jsonToString := External.sample.jsonToString
  sha256Hex bytes :=
    ((sampleDigests.find? fun entry => utf8 (sampleSalt ++ entry.1) == bytes).map Prod.snd).getD ""
  md5Hex := External.sample.md5Hex
  parsesF64 := External.sample.parsesF64
  uuid := External.sample.uuid

/-- The claims that the sample signature keeps, as texts. -/
def sampleClaims : List String :=
  ["token_use", "iss", "username", "origin_jti", "scope", "nonce"]

/-- Random values in counting order, and tokens that are the text of their claims. -/
@[reducible]
def Crypto.sample : Crypto where
  randomToken draw := "token-" ++ decimal 9 draw
  sixDigitCode draw := decimal 6 draw
  salt _ := sampleSalt
  generatePassword _ draw := "Generated-" ++ decimal 9 draw
  poolId draw := "us-east-1_" ++ decimal 9 draw
  clientId draw := "client" ++ decimal 20 draw
  clientSecret draw := decimal 51 draw
  sha256Url bytes :=
    if bytes = utf8 "verifier" then "iMnq5o6zALKXGivsnlom_0F5_WYda32GHkxlV7mq7hQ" else ""
  sign claims := String.ofList (List.intercalate ['|']
    ((sampleClaims.map fun name => (claims[name]?.bind Json.asStr).getD "") ++
      [decimal 1 ((claims["exp"]?.bind Json.asI64).getD 0).toNat] |>.map String.toList))
  verify token :=
    let parts := split '|' token
    if parts.length = 7 then
      some (((sampleClaims.zip parts).foldl
        (fun (claims : Claims) entry => claims.insert entry.1 (.str entry.2)) ∅).insert "exp"
          (.num ((parts.getLast?.bind parseI64).getD 0)))
    else none
  isUppercase char := 'A' ≤ char && char ≤ 'Z'
  isLowercase char := 'a' ≤ char && char ≤ 'z'
  isAlphanumeric := isAsciiAlphanumeric

theorem sample_fresh : CryptoLaws Crypto.sample where
  fresh := by
    intro first second same
    apply decimal_injective 9
    have lists : ("token-" ++ decimal 9 first).toList = ("token-" ++ decimal 9 second).toList :=
      congrArg String.toList same
    rw [String.toList_append, String.toList_append] at lists
    exact String.toList_inj.mp (List.append_cancel_left lists)

end CloudTwin.Cognito
