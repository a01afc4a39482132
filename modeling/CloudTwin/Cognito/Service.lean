/-
**The Cognito service** (`aws/cognito/service.rs`).

Users, passwords, tokens, hosted-UI sessions and codes, as functions on the tables. A function that
can fail returns `CResult`; the request that calls it runs it in a transaction. A random key is the
next value of its stream, and `drawn` counts the values drawn.

* `findUser` — the ways in which a login names a user, tried in turn (`loginWays`).
* `issueTokens`, `refresh`, `validateAccess` — tokens and the origin that they stem from.
* `takeCode`, `takeChallenge`, `checkCode` — the artefacts of a sign-in that are used up.
-/

import CloudTwin.Cognito.Models
import CloudTwin.Lib.Base64
import CloudTwin.Lib.Transaction

namespace CloudTwin.Cognito

open Lib Lib.Text

set_option linter.unusedSectionVars false

section External

variable [External] [Crypto]

/-! ### Passwords -/

def hashPassword (password salt : String) : String :=
  External.sha256Hex (utf8 (salt ++ password))

def setPasswordFields (user : User) (password : String) (draw : Nat) : User :=
  { user with
    passwordHash := some (hashPassword password (Crypto.salt draw))
    passwordSalt := some (Crypto.salt draw) }

def verifyPassword (user : User) (password : String) : Bool :=
  match user.passwordHash, user.passwordSalt with
  | some hash, some salt => hashPassword password salt == hash
  | _, _ => false

def badPassword (reason : String) : CogError :=
  err "InvalidPasswordException" ("Password does not conform to policy: " ++ reason)

def isAsciiDigit (char : Char) : Bool :=
  '0' ≤ char && char ≤ '9'

def checkPolicy (pool : Pool) (password : String) : CResult Unit := do
  let policy := pool.passwordPolicy
  let chars := password.toList
  rejectIf (chars.length < policy.minLength) (badPassword "Password not long enough")
  rejectIf (policy.upper ∧ ¬ chars.any Crypto.isUppercase)
    (badPassword "Password must have uppercase characters")
  rejectIf (policy.lower ∧ ¬ chars.any Crypto.isLowercase)
    (badPassword "Password must have lowercase characters")
  rejectIf (policy.numbers ∧ ¬ chars.any isAsciiDigit)
    (badPassword "Password must have numeric characters")
  rejectIf (policy.symbols ∧ ¬ chars.any fun char =>
      !Crypto.isAlphanumeric char && !isWhitespace char)
    (badPassword "Password must have symbol characters")

/-! ### Pools and clients -/

def findPool (store : Store) (id : String) : Option Pool :=
  store.pools.find? fun pool => pool.id == id

def getPool (store : Store) (id : String) : CResult Pool :=
  okOr (findPool store id)
    (err "ResourceNotFoundException" ("User pool " ++ id ++ " does not exist."))

def createPool (store : Store) (name : String) (data : Json) : CResult (Pool × Store) := do
  rejectIf (name.isEmpty) (err "InvalidParameterException" "PoolName is required.")
  rejectIf ((data.get "UsernameAttributes").isSome ∧ (data.get "AliasAttributes").isSome)
    (err "InvalidParameterException"
      "Only one of the aliasAttributes or usernameAttributes can be set in a User Pool.")
  let id := Crypto.poolId store.drawn
  rejectIf ((findPool store id).isSome)
    (err "InvalidParameterException" ("User pool " ++ id ++ " already exists."))
  let pool : Pool := { id, name, data }
  return (pool, { store with pools := store.pools ++ [pool], drawn := store.drawn + 1 })

def savePool (store : Store) (pool : Pool) : Store :=
  { store with pools := store.pools.map fun old => if old.id = pool.id then pool else old }

def deletePool (store : Store) (id : String) : CResult Store := do
  let pool ← getPool store id
  rejectIf ((pool.data.get "DeletionProtection").bind Json.asStr = some "ACTIVE")
    (err "InvalidParameterException"
      "The user pool cannot be deleted because deletion protection is activated.")
  return { store with
    pools := store.pools.filter fun row => row.id != id
    clients := store.clients.filter fun row => row.poolId != id
    users := store.users.filter fun row => row.poolId != id
    authCodes := store.authCodes.filter fun row => row.poolId != id
    sessions := store.sessions.filter fun row => row.poolId != id
    origins := store.origins.filter fun row => row.poolId != id
    refreshTokens := store.refreshTokens.filter fun row => row.poolId != id
    challenges := store.challenges.filter fun row => row.poolId != id
    codes := store.codes.filter fun row => row.poolId != id }

def findClient (store : Store) (clientId : String) : Option Client :=
  store.clients.find? fun client => client.clientId == clientId

def getClient (store : Store) (poolId : Option String) (clientId : String) : CResult Client :=
  okOr ((findClient store clientId).filter fun client => poolId.all (· == client.poolId))
    (err "ResourceNotFoundException" ("User pool client " ++ clientId ++ " does not exist."))

def createClient (store : Store) (poolId name : String) (generateSecret : Bool) (data : Json) :
    CResult (Client × Store) := do
  let _ ← getPool store poolId
  rejectIf (name.isEmpty) (err "InvalidParameterException" "ClientName is required.")
  let clientId := Crypto.clientId store.drawn
  rejectIf ((findClient store clientId).isSome)
    (err "InvalidParameterException" ("Client " ++ clientId ++ " already exists."))
  let client : Client :=
    { clientId, poolId, name, data
      secret := if generateSecret then some (Crypto.clientSecret (store.drawn + 1)) else none }
  return (client, { store with clients := store.clients ++ [client], drawn := store.drawn + 2 })

def saveClient (store : Store) (client : Client) : Store :=
  { store with
    clients := store.clients.map fun old =>
      if old.clientId = client.clientId then client else old }

def deleteClient (store : Store) (poolId clientId : String) : CResult Store := do
  let _ ← getClient store (some poolId) clientId
  return { store with
    clients := store.clients.filter fun row => row.clientId != clientId
    refreshTokens := store.refreshTokens.map fun row =>
      if row.clientId = clientId then { row with revoked := true } else row }

/-! ### Users -/

/-- `ORDER BY created, username`. -/
def createdBefore (first second : User) : Prop :=
  first.created < second.created ∨
    (first.created = second.created ∧ first.username ≤ second.username)

instance : DecidableRel createdBefore :=
  fun _ _ => inferInstanceAs (Decidable (_ ∨ _))

/-- `query_users`. -/
def queryUsers (store : Store) (poolId : String) (condition : User → Bool) : List User :=
  (store.users.filter fun user => user.poolId == poolId && condition user).insertionSort
    createdBefore

def userByUsername (store : Store) (poolId username : String) : Option User :=
  (queryUsers store poolId fun user => user.username == username).head?

/-- SQLite's `lower(a) = lower(b)`, false when the attribute is missing. -/
def matchesIgnoringCase (value : Option String) (login : String) : Bool :=
  value.any fun text => toAsciiLowercase text == toAsciiLowercase login

/-- **The ways in which a login names a user**, in the order in which they are tried: user name,
username attribute (email/phone), verified alias, or `sub`. -/
def loginWays (pool : Pool) (login : String) : List (User → Bool) :=
  let uattrs := pool.usernameAttributes
  let aliases := pool.aliasAttributes
  let emailMatch := fun user : User => matchesIgnoringCase user.attributes["email"]? login
  let phoneMatch := fun user : User => user.attributes["phone_number"]? == some login
  [fun user : User =>
    if pool.caseSensitive then user.username == login
    else eqIgnoreAsciiCase user.username login] ++
  (if uattrs.any (· == "email") then [emailMatch] else []) ++
  (if uattrs.any (· == "phone_number") then [phoneMatch] else []) ++
  (if aliases.any (· == "email") then
    [fun user => emailMatch user && user.attributes["email_verified"]? == some "true"] else []) ++
  (if aliases.any (· == "phone_number") then
    [fun user => phoneMatch user && user.attributes["phone_number_verified"]? == some "true"]
    else []) ++
  (if aliases.any (· == "preferred_username") then
    [fun user => matchesIgnoringCase user.attributes["preferred_username"]? login] else []) ++
  [fun user => user.sub == login]

def findUser (store : Store) (pool : Pool) (login : String) : Option User :=
  (loginWays pool login).findSome? fun way => (queryUsers store pool.id way).head?

def getUser (store : Store) (pool : Pool) (login : String) : CResult User :=
  okOr (findUser store pool login) (err "UserNotFoundException" "User does not exist.")

def saveUser (store : Store) (user : User) : Store :=
  { store with
    users := store.users.map fun old =>
      if old.Is user.poolId user.username then
        { old with
          attributes := user.attributes, passwordHash := user.passwordHash
          passwordSalt := user.passwordSalt, status := user.status, enabled := user.enabled
          tokensValidAfter := user.tokensValidAfter }
      else old }

def deleteUser (store : Store) (user : User) : Store :=
  { store with
    users := store.users.filter fun row =>
      !(row.poolId == user.poolId && row.username == user.username)
    authCodes := store.authCodes.filter fun row =>
      !(row.poolId == user.poolId && row.issued.username == user.username)
    sessions := store.sessions.filter fun row =>
      !(row.poolId == user.poolId && row.username == user.username)
    origins := store.origins.filter fun row =>
      !(row.poolId == user.poolId && row.username == user.username)
    refreshTokens := store.refreshTokens.filter fun row =>
      !(row.poolId == user.poolId && row.username == user.username)
    challenges := store.challenges.filter fun row =>
      !(row.poolId == user.poolId && row.username == user.username)
    codes := store.codes.filter fun row =>
      !(row.poolId == user.poolId && row.username == user.username) }

structure NewUser where
  login : String
  attributes : List (String × String)
  password : Option String
  status : UserStatus

def emailTaken (store : Store) (poolId email : String) (exceptName : Option String) : Bool :=
  (queryUsers store poolId fun user => matchesIgnoringCase user.attributes["email"]? email).any
    fun user => some user.username != exceptName

/-- The name under which a new user is stored, and its attributes with the login among them. -/
def newIdentity (pool : Pool) (login sub : String) (attributes : Attributes) :
    CResult (String × Attributes) :=
  let uattrs := pool.usernameAttributes
  if uattrs.isEmpty then
    if login.isEmpty then .error (err "InvalidParameterException" "Username is required.")
    else .ok (login, attributes)
  else if login.toList.contains '@' && uattrs.any (· == "email") then
    .ok (sub, attributes.insert "email" login)
  else if startsWith login "+" && uattrs.any (· == "phone_number") then
    .ok (sub, attributes.insert "phone_number" login)
  else
    .error (err "InvalidParameterException" ("Username should be " ++
      (if uattrs.any (· == "email") then "an email" else "a phone number") ++ "."))

/-- The attributes of a request but `sub`, the last value of a name counting. -/
def givenAttributes (attributes : List (String × String)) : Attributes :=
  (attributes.filter fun entry => entry.1 != "sub").foldl
    (fun map entry => map.insert entry.1 entry.2) ∅

def userExists (pool : Pool) (login : String) : CogError :=
  err "UsernameExistsException"
    (if pool.emailIsUsername && login.toList.contains '@' then
      "An account with the given email already exists."
    else "User account already exists")

def createUser (store : Store) (pool : Pool) (req : NewUser) (now : Int) :
    CResult (User × Store) := do
  let sub := External.uuid store.drawn
  let (username, attributes) ←
    newIdentity pool req.login sub (givenAttributes req.attributes)
  rejectIf ((findUser store pool req.login).isSome ∨
      (userByUsername store pool.id username).isSome) (userExists pool req.login)
  rejectIf (pool.emailIsUsername ∧
      ∃ email ∈ attributes["email"]?, emailTaken store pool.id email none)
    (err "UsernameExistsException" "An account with the given email already exists.")
  let blank : User :=
    { poolId := pool.id, username, sub, attributes, passwordHash := none, passwordSalt := none
      status := req.status, enabled := true, created := now, tokensValidAfter := 0 }
  let user := match req.password with
    | some password => setPasswordFields blank password (store.drawn + 1)
    | none => blank
  return (user, { store with users := store.users ++ [user], drawn := store.drawn + 2 })

/-- One attribute of `update_attributes`; `given` are the names the request sets. -/
def updateAttribute (store : Store) (pool : Pool) (username : String) (given : List String)
    (attributes : Attributes) (name value : String) : CResult Attributes := do
  rejectIf (name = "sub")
    (err "InvalidParameterException" "Cannot modify the non-mutable attribute sub")
  rejectIf (name = "email" ∧ pool.emailIsUsername ∧
      emailTaken store pool.id value (some username))
    (err "AliasExistsException" "An account with the given email already exists.")
  let attributes :=
    if name = "email" ∧ attributes["email"]? ≠ some value ∧ "email_verified" ∉ given then
      attributes.insert "email_verified" "false"
    else attributes
  let attributes :=
    if name = "phone_number" ∧ attributes["phone_number"]? ≠ some value ∧
        "phone_number_verified" ∉ given then
      attributes.insert "phone_number_verified" "false"
    else attributes
  return attributes.insert name value

def updateEach (store : Store) (pool : Pool) (username : String) (given : List String) :
    List (String × String) → Attributes → CResult Attributes
  | [], attributes => .ok attributes
  | (name, value) :: rest, attributes => do
    let next ← updateAttribute store pool username given attributes name value
    updateEach store pool username given rest next

/-- `email` changes reset `email_verified` unless given. -/
def updateAttributes (store : Store) (pool : Pool) (user : User)
    (attrs : List (String × String)) : CResult (User × Store) := do
  let attributes ← updateEach store pool user.username (attrs.map Prod.fst) attrs user.attributes
  let updated := { user with attributes }
  return (updated, saveUser store updated)

/-- Set a password after validating it against the pool policy. -/
def setPassword (store : Store) (pool : Pool) (user : User) (password : String)
    (permanent : Bool) : CResult (User × Store) := do
  checkPolicy pool password
  let updated :=
    { setPasswordFields user password store.drawn with
      status := if permanent then .confirmed else .forceChangePassword }
  return (updated, { saveUser store updated with drawn := store.drawn + 1 })

/-! ### Authentication -/

inductive AuthOutcome where
  | ok (user : User)
  | newPasswordRequired (user : User)

def authenticate (store : Store) (pool : Pool) (client : Option Client)
    (login password : String) : CResult AuthOutcome :=
  match findUser store pool login with
  | none =>
    if client.any Client.preventUserExistenceErrors then .error (notAuthorized badCredentials)
    else .error (err "UserNotFoundException" "User does not exist.")
  | some user =>
    if !user.enabled then .error (notAuthorized "User is disabled.")
    else if !verifyPassword user password then .error (notAuthorized badCredentials)
    else match user.status with
      | .unconfirmed => .error (err "UserNotConfirmedException" "User is not confirmed.")
      | .resetRequired =>
        .error (err "PasswordResetRequiredException" "Password reset required for the user")
      | .forceChangePassword => .ok (.newPasswordRequired user)
      | .confirmed => .ok (.ok user)

def createChallenge (store : Store) (client : Client) (user : User) (challenge : String)
    (now : Int) : String × Store :=
  let session := Crypto.randomToken store.drawn
  (session, { store with
    challenges := store.challenges ++
      [{ session, poolId := client.poolId, clientId := client.clientId, username := user.username
         challenge, expiresAt := now + client.authSessionMinutes * 60 * 1000 }]
    drawn := store.drawn + 1 })

def sessionExpired : CogError :=
  notAuthorized "Invalid session for the user, session is expired."

/-- Consume a challenge session, returning the user it was issued for. -/
def takeChallenge (store : Store) (client : Client) (session challenge : String) (now : Int) :
    CResult (User × Store) := do
  let row ← okOr (store.challenges.find? fun row => row.session == session) sessionExpired
  rejectIf (row.clientId ≠ client.clientId ∨ row.expiresAt < now) sessionExpired
  rejectIf (row.challenge ≠ challenge)
    (err "InvalidParameterException" "Invalid challenge name for the session.")
  let user ← okOr (userByUsername store client.poolId row.username) sessionExpired
  return (user, { store with
    challenges := store.challenges.filter fun row => row.session != session })

/-! ### Tokens -/

structure TokenSet where
  idToken : Option String
  accessToken : String
  refreshToken : Option String
  expiresIn : Int

structure IssueOpts where
  scopes : List String
  nonce : Option String
  authTime : Int
  idToken : Bool
  refresh : Bool
  originJti : Option String

def adminScope : String := "aws.cognito.signin.user.admin"

/-- A value of the id token; `updated_at` is a number if it reads as one. -/
def idClaimValue (name value : String) : Json :=
  if endsWith name "_verified" then .bool (eqIgnoreAsciiCase value "true")
  else if name = "updated_at" then
    match parseI64 value with
    | some number => .num number
    | none => .str value
  else .str value

def accessClaims (ctx : Ctx) (pool : Pool) (client : Client) (user : User) (opts : IssueOpts)
    (origin eventId jti : String) (seconds : Int) : Claims :=
  let entries : List (String × Json) :=
    [("sub", .str user.sub), ("iss", .str (ctx.issuer pool.id)),
      ("client_id", .str client.clientId), ("origin_jti", .str origin),
      ("event_id", .str eventId), ("token_use", .str "access"),
      ("scope", .str (joinBlank opts.scopes)), ("auth_time", .num opts.authTime),
      ("exp", .num (seconds + client.ttl .access ctx)), ("iat", .num seconds),
      ("jti", .str jti), ("username", .str user.username), ("version", .num 2)]
  entries.foldl (fun claims entry => claims.insert entry.1 entry.2) ∅

/-- The claims of the id token: the attributes of the user, then the fixed claims over them. -/
def idClaims (ctx : Ctx) (pool : Pool) (client : Client) (user : User) (opts : IssueOpts)
    (origin eventId jti : String) (seconds : Int) : Claims :=
  let attributes : Claims := user.attributes.toList.foldl
    (fun claims entry => claims.insert entry.1 (idClaimValue entry.1 entry.2)) ∅
  let attributes :=
    if (user.attr "email").isSome ∧ attributes["email_verified"]? = none then
      attributes.insert "email_verified" (.bool false)
    else attributes
  let entries : List (String × Json) :=
    [("sub", .str user.sub), ("iss", .str (ctx.issuer pool.id)),
      ("cognito:username", .str user.username), ("origin_jti", .str origin),
      ("aud", .str client.clientId), ("event_id", .str eventId), ("token_use", .str "id"),
      ("auth_time", .num opts.authTime), ("exp", .num (seconds + client.ttl .id ctx)),
      ("iat", .num seconds), ("jti", .str jti)]
  let claims := entries.foldl (fun claims entry => claims.insert entry.1 entry.2) attributes
  match opts.nonce with
  | some nonce => claims.insert "nonce" (.str nonce)
  | none => claims

/-- The origin that the tokens stem from: the one given, or a new one. -/
def originOf (store : Store) (pool : Pool) (client : Client) (user : User)
    (given : Option String) : String × Store :=
  match given with
  | some origin => (origin, store)
  | none =>
    let origin := External.uuid store.drawn
    (origin, { store with
      origins := store.origins ++
        [{ originJti := origin, poolId := pool.id, clientId := client.clientId
           username := user.username, revoked := false }]
      drawn := store.drawn + 1 })

/-- The refresh token of a set, if one is asked for. -/
def refreshTokenOf (store : Store) (ctx : Ctx) (pool : Pool) (client : Client) (user : User)
    (opts : IssueOpts) (origin : String) (now : Int) : Option String × Store :=
  if opts.refresh then
    let token := Crypto.randomToken store.drawn
    (some token, { store with
      refreshTokens := store.refreshTokens ++
        [{ token, poolId := pool.id, clientId := client.clientId, username := user.username
           originJti := origin, scope := joinBlank opts.scopes, authTime := opts.authTime
           expiresAt := now + client.ttl .refresh ctx * 1000, revoked := false }]
      drawn := store.drawn + 1 })
  else (none, store)

def issueTokens (store : Store) (ctx : Ctx) (pool : Pool) (client : Client) (user : User)
    (opts : IssueOpts) (now : Int) : TokenSet × Store :=
  let rooted := originOf store pool client user opts.originJti
  let origin := rooted.1
  let drawn := rooted.2.drawn
  let eventId := External.uuid drawn
  let access := accessClaims ctx pool client user opts origin eventId (External.uuid (drawn + 1))
    (now / 1000)
  let identity :=
    if opts.idToken then
      some (idClaims ctx pool client user opts origin eventId (External.uuid (drawn + 2))
        (now / 1000))
    else none
  let issued := refreshTokenOf { rooted.2 with drawn := drawn + 3 } ctx pool client user opts origin
    now
  ({ idToken := identity.map Crypto.sign, accessToken := Crypto.sign access
     refreshToken := issued.1, expiresIn := client.ttl .access ctx }, issued.2)

/-- Tokens for a successful API (InitiateAuth-style) authentication. -/
def issueApiTokens (store : Store) (ctx : Ctx) (pool : Pool) (client : Client) (user : User)
    (now : Int) : TokenSet × Store :=
  issueTokens store ctx pool client user
    { scopes := [adminScope], nonce := none, authTime := now / 1000, idToken := true
      refresh := true, originJti := none } now

def originRevoked (store : Store) (origin : String) : Bool :=
  ((store.origins.find? fun row => row.originJti == origin).map OriginRow.revoked).getD true

def invalidRefresh : CogError := notAuthorized "Invalid Refresh Token"

/-- Exchange a refresh token for new ID/access tokens (no new refresh token). -/
def refresh (store : Store) (ctx : Ctx) (client : Client) (token : String) (now : Int) :
    CResult (TokenSet × Store) := do
  let row ← okOr (store.refreshTokens.find? fun row => row.token == token) invalidRefresh
  rejectIf (row.clientId ≠ client.clientId) invalidRefresh
  rejectIf (row.revoked ∨ originRevoked store row.originJti)
    (notAuthorized "Refresh Token has been revoked")
  rejectIf (row.expiresAt < now) (notAuthorized "Refresh Token has expired")
  let pool ← getPool store client.poolId
  let user ← okOr (userByUsername store pool.id row.username) invalidRefresh
  rejectIf (user.enabled = false) (notAuthorized "User is disabled.")
  let scopes := splitWhitespace row.scope
  return issueTokens store ctx pool client user
    { scopes, nonce := none, authTime := row.authTime
      idToken := scopes.any fun scope => scope == "openid" || scope == adminScope
      refresh := false, originJti := some row.originJti } now

/-- Revoke a refresh token (and the access tokens derived from it): `false` when the token is
unknown. -/
def revokeRefresh (store : Store) (client : Client) (token : String) : CResult (Bool × Store) :=
  match store.refreshTokens.find? fun row => row.token == token with
  | none => .ok (false, store)
  | some row => do
    rejectIf (row.clientId ≠ client.clientId)
      (err "UnauthorizedException" "Token does not belong to this client.")
    return (true, { store with
      refreshTokens := store.refreshTokens.map fun other =>
        if other.token = token then { other with revoked := true } else other
      origins := store.origins.map fun origin =>
        if origin.originJti = row.originJti then { origin with revoked := true } else origin })

def invalidAccess : CogError := notAuthorized "Invalid Access Token"

/-- A text claim. -/
def claimText (claims : Claims) (name : String) : Option String :=
  claims[name]?.bind Json.asStr

/-- Validate an access token issued for a user: signature, expiry, issuer, revocation, and user
state. -/
def validateAccess (store : Store) (ctx : Ctx) (token : String) (now : Int) :
    CResult (Pool × User × Claims) := do
  let claims ← okOr (Crypto.verify token) invalidAccess
  rejectIf (claimText claims "token_use" ≠ some "access") invalidAccess
  rejectIf ((claims["exp"]?.bind Json.asI64).getD 0 < now / 1000)
    (notAuthorized "Access Token has expired")
  let iss := (claimText claims "iss").getD ""
  let poolId := afterLast '/' iss
  rejectIf (iss ≠ ctx.issuer poolId) invalidAccess
  let pool ← okOr (findPool store poolId) invalidAccess
  let username ← okOr (claimText claims "username") invalidAccess
  let user ← okOr (userByUsername store pool.id username)
    (err "UserNotFoundException" "User does not exist.")
  rejectIf (originRevoked store ((claimText claims "origin_jti").getD ""))
    (notAuthorized "Access Token has been revoked")
  rejectIf (user.enabled = false) (notAuthorized "User is disabled.")
  return (pool, user, claims)

def hasScope (claims : Claims) (scope : String) : Bool :=
  (claimText claims "scope").any fun text => (splitWhitespace text).any (· == scope)

/-- Revoke every refresh token, access token, and hosted-UI session of a user. -/
def globalSignOut (store : Store) (user : User) (now : Int) : Store :=
  saveUser
    { store with
      origins := store.origins.map fun row =>
        if row.poolId = user.poolId ∧ row.username = user.username then
          { row with revoked := true } else row
      refreshTokens := store.refreshTokens.map fun row =>
        if row.poolId = user.poolId ∧ row.username = user.username then
          { row with revoked := true } else row
      sessions := store.sessions.filter fun row =>
        !(row.poolId == user.poolId && row.username == user.username) }
    { user with tokensValidAfter := now }

/-! ### Hosted UI sessions and authorization codes -/

def sessionTtl : Int := 3600 * 1000

def createSession (store : Store) (user : User) (authTime now : Int) : String × Store :=
  let id := Crypto.randomToken store.drawn
  (id, { store with
    sessions := store.sessions ++
      [{ id, poolId := user.poolId, username := user.username, authTime
         expiresAt := now + sessionTtl }]
    drawn := store.drawn + 1 })

/-- Resolve a hosted-UI session to a signed-in, enabled, confirmed user. -/
def sessionUser (store : Store) (poolId session : String) (now : Int) : Option (User × Int) := do
  let row ← store.sessions.find? fun row => row.id == session && row.poolId == poolId
  if row.expiresAt < now then none
  else
    let user ← userByUsername store poolId row.username
    if !user.enabled || user.status ≠ .confirmed then none
    else some (user, row.authTime)

def deleteSession (store : Store) (session : String) : Store :=
  { store with sessions := store.sessions.filter fun row => row.id != session }

def codeTtl : Int := 300 * 1000

def createCode (store : Store) (poolId : String) (code : AuthCode) (now : Int) : String × Store :=
  let id := External.uuid store.drawn
  (id, { store with
    authCodes := store.authCodes ++
      [{ code := id, poolId, issued := code, expiresAt := now + codeTtl, used := false }]
    drawn := store.drawn + 1 })

/-- Consume an authorization code (single use): none if unknown, used or expired. -/
def takeCode (store : Store) (code : String) (now : Int) : Option AuthCode × Store :=
  match store.authCodes.find? fun row => row.code == code with
  | none => (none, store)
  | some row =>
    let spent := { store with
      authCodes := store.authCodes.map fun other =>
        if other.code = code then { other with used := true } else other }
    if row.used ∨ row.expiresAt < now then (none, spent) else (some row.issued, spent)

def verifyPkce (challenge method verifier : String) : Bool :=
  if method = "S256" then Crypto.sha256Url (utf8 verifier) == challenge
  else verifier == challenge

/-! ### Verification codes -/

def setCode (store : Store) (user : User) (kind : String) (now : Int) : String × Store :=
  let code := Crypto.sixDigitCode store.drawn
  (code, { store with
    codes := (store.codes.filter fun row =>
        !(row.poolId == user.poolId && row.username == user.username && row.kind == kind)) ++
      [{ poolId := user.poolId, username := user.username, kind, code
         expiresAt := now + 86400 * 1000 }]
    drawn := store.drawn + 1 })

def checkCode (store : Store) (user : User) (kind code : String) (now : Int) : CResult Store :=
  match store.codes.find? fun row =>
    row.poolId == user.poolId && row.username == user.username && row.kind == kind with
  | none => .error (err "CodeMismatchException"
      "Invalid verification code provided, please try again.")
  | some row =>
    if row.code ≠ trim code then
      .error (err "CodeMismatchException"
        "Invalid verification code provided, please try again.")
    else if row.expiresAt < now then
      .error (err "ExpiredCodeException" "Invalid code provided, please request a code again.")
    else .ok { store with
      codes := store.codes.filter fun row =>
        !(row.poolId == user.poolId && row.username == user.username && row.kind == kind) }

end External

end CloudTwin.Cognito
