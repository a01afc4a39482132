/-
**The transactions of Cognito requests** (`aws/cognito/handlers_api.rs`, `handlers_oidc.rs`).

An API request is one transaction. A request of the hosted UI is several: what an earlier one has
read (a client, a pool, a user) is an argument of the later one, and need not be as it is now. `Tx`
lists all transactions, each with what its request carries and what was read before it; a run of
`perform` in which they follow each other in any order, with any arguments, is every interleaving of
requests.

The checks that a request makes before its first transaction (required parameters, the flows that
a client allows in OAuth requests) touch no table and are left out, as are the mails.
-/

import CloudTwin.Cognito.Service

namespace CloudTwin.Cognito

open Lib Lib.Text

set_option linter.unusedSectionVars false

/-- **A transaction** with its arguments. -/
inductive Tx where
  -- pools and clients
  | createUserPool (name : String) (data : Json)
  | updateUserPool (poolId : String) (updates : List (String × Json))
  | deleteUserPool (poolId : String)
  | createUserPoolClient (poolId name : String) (generateSecret : Bool) (data : Json)
  | updateUserPoolClient (poolId clientId : String) (name : Option String) (data : Json)
  | deleteUserPoolClient (poolId clientId : String)
  -- administration of users
  | adminCreateUser (poolId login : String) (attributes : List (String × String))
      (temporaryPassword messageAction : Option String) (emailMedium : Bool)
  | adminSetEnabled (poolId login : String) (enable : Bool)
  | adminDeleteUser (poolId login : String)
  | adminSetUserPassword (poolId login password : String) (permanent : Bool)
  | adminUserGlobalSignOut (poolId login : String)
  | adminUpdateUserAttributes (poolId login : String) (attributes : List (String × String))
  | adminDeleteUserAttributes (poolId login : String) (names : List String)
  | adminConfirmSignUp (poolId login : String)
  | adminResetUserPassword (poolId login : String)
  -- requests of users
  | initiateAuth (poolId : Option String) (clientId login password : String)
  | initiateRefresh (poolId : Option String) (clientId token : String)
  | respondToAuthChallenge (poolId : Option String) (clientId session newPassword : String)
      (attributes : List (String × String))
  | getUser (token : String)
  | globalSignOut (token : String)
  | changePassword (token previous proposed : String)
  | revokeToken (clientId : String) (secret : Option String) (token : String)
  | signUp (clientId login password : String) (attributes : List (String × String))
  | confirmSignUp (clientId login code : String)
  | resendConfirmationCode (clientId login : String)
  | forgotPassword (clientId login : String)
  | confirmForgotPassword (clientId login code password : String)
  -- the hosted UI
  | sessionUser (poolId session : String)
  | login (pool : Pool) (client : Client) (name password : String)
  | loginNewPassword (pool : Pool) (client : Client) (session newPassword : String)
  | createSession (user : User) (authTime : Int)
  | createCode (poolId : String) (code : AuthCode)
  | implicitTokens (pool : Pool) (client : Client) (user : User) (scopes : List String)
      (nonce : Option String) (authTime : Int)
  | exchange (client : Client) (code redirectUri : String) (verifier : Option String)
  | refresh (client : Client) (token : String)
  | revoke (client : Client) (token : String)
  | deleteSession (session : String)

/-- What a transaction returns. An exchange that fails commits: its failure is a value. -/
inductive Response where
  | done
  | pool (pool : Pool)
  | client (client : Client)
  | user (user : User)
  | tokens (tokens : TokenSet)
  | challenge (session : String) (user : User)
  | delivery (destination : Option String)
  | signedUp (sub : String) (destination : Option String)
  | session (found : Option (User × Int))
  | created (key : String)
  | exchanged (result : Except String TokenSet)
  | revoked (known : Bool)

/-- A transaction and the reading of the clock when it runs. -/
structure Input where
  now : Int
  tx : Tx

section External

variable [External] [Crypto]

/-! ### Pools and clients -/

/-- `data.entry("UsernameConfiguration").or_insert_with(..)`. -/
def withUsernameConfiguration (data : Json) : Json :=
  match data with
  | .obj members =>
    if (members.lookup "UsernameConfiguration").isSome then data
    else .obj (members ++ [("UsernameConfiguration", .obj [("CaseSensitive", .bool false)])])
  | other => other

def createUserPool (store : Store) (name : String) (data : Json) : CResult (Pool × Store) :=
  createPool store name (withUsernameConfiguration data)

/-- The settings that UpdateUserPool leaves as they are. -/
def immutableSettings : List String :=
  ["UserPoolId", "UsernameAttributes", "AliasAttributes", "PoolName"]

/-- `Map::insert`. -/
def setMember (members : List (String × Json)) (name : String) (value : Json) :
    List (String × Json) :=
  (members.filter fun member => member.1 != name) ++ [(name, value)]

def updateUserPool (store : Store) (poolId : String) (updates : List (String × Json)) :
    CResult Store := do
  let pool ← getPool store poolId
  let members := match pool.data with
    | .obj members => members
    | _ => []
  let changed := (updates.filter fun update => !immutableSettings.contains update.1).foldl
    (fun members update => setMember members update.1 update.2) members
  return savePool store { pool with data := .obj changed }

def updateUserPoolClient (store : Store) (poolId clientId : String) (name : Option String)
    (data : Json) : CResult (Client × Store) := do
  let client ← getClient store (some poolId) clientId
  let updated := { client with name := name.getD client.name, data }
  return (updated, saveClient store updated)

/-! ### Helpers of the handlers -/

/-- `with_user`: the pool and the user of an administrative request. -/
def withUser (store : Store) (poolId login : String) : CResult (Pool × User) := do
  let pool ← getPool store poolId
  let user ← Cognito.getUser store pool login
  return (pool, user)

/-- `with_client_user`: the pool and the user of a public request. -/
def withClientUser (store : Store) (clientId login : String) : CResult (Pool × User) := do
  let client ← getClient store none clientId
  let pool ← getPool store client.poolId
  let user ← Cognito.getUser store pool login
  return (pool, user)

def accessUser (store : Store) (ctx : Ctx) (token : String) (now : Int) : CResult User := do
  let (_, user, claims) ← validateAccess store ctx token now
  rejectIf (hasScope claims adminScope = false)
    (notAuthorized "Access Token does not have required scopes")
  return user

def cannotConfirm (user : User) : CogError :=
  notAuthorized ("User cannot be confirmed. Current status is " ++ user.status.text)

/-- The attributes of a user whose sign-up is confirmed. -/
def confirmedAttributes (pool : Pool) (user : User) : Attributes :=
  if pool.autoVerified.any (· == "email") ∧ (user.attr "email").isSome then
    user.attributes.insert "email_verified" "true"
  else user.attributes

def confirmUser (store : Store) (pool : Pool) (user : User) : CResult Store := do
  rejectIf (user.status ≠ .unconfirmed) (cannotConfirm user)
  return saveUser store
    { user with status := .confirmed, attributes := confirmedAttributes pool user }

/-- `a***@e***` style masking. -/
def maskEmail (email : String) : String :=
  if email.toList.contains '@' then
    let initial := fun part : List Char => String.ofList [part.head?.getD '*']
    initial (email.toList.takeWhile (· != '@')) ++ "***@" ++
      initial ((email.toList.dropWhile (· != '@')).drop 1) ++ "***"
  else "***"

/-- The destination in CodeDeliveryDetails. -/
def codeDelivery (user : User) : Option String :=
  (user.attr "email").map maskEmail

/-! ### Administration of users -/

/-- The password of an invited user: the one given, if the policy allows it, or a generated one. -/
def temporaryPasswordOf (store : Store) (pool : Pool) (given : Option String) : CResult String :=
  match given with
  | some password => do
    checkPolicy pool password
    return password
  | none => .ok (Crypto.generatePassword pool.passwordPolicy store.drawn)

/-- The user that AdminCreateUser creates, or invites again (`RESEND`). -/
def invitedUser (store : Store) (pool : Pool) (login : String)
    (attributes : List (String × String)) (password : String) (messageAction : Option String)
    (now : Int) : CResult (User × Store) :=
  if messageAction = some "RESEND" then do
    let user ← Cognito.getUser store pool login
    rejectIf (user.status ≠ .forceChangePassword) (err "UnsupportedUserStateException"
      "Resend not possible. User is not in FORCE_CHANGE_PASSWORD state.")
    setPassword store pool user password false
  else
    createUser store pool
      { login, attributes, password := some password, status := .forceChangePassword } now

def adminCreateUser (store : Store) (poolId login : String) (attributes : List (String × String))
    (temporaryPassword messageAction : Option String) (emailMedium : Bool) (now : Int) :
    CResult (User × Store) := do
  rejectIf (∃ action ∈ messageAction, action ≠ "SUPPRESS" ∧ action ≠ "RESEND")
    (err "InvalidParameterException" ("Invalid MessageAction: " ++ messageAction.getD ""))
  let pool ← getPool store poolId
  let password ← temporaryPasswordOf store pool temporaryPassword
  let (user, after) ← invitedUser { store with drawn := store.drawn + 1 } pool login attributes
    password messageAction now
  rejectIf (emailMedium ∧ messageAction ≠ some "SUPPRESS" ∧ (user.attr "email").isNone)
    (err "InvalidParameterException" "User has no attribute matching desired delivery mediums")
  return (user, after)

def adminSetEnabled (store : Store) (poolId login : String) (enable : Bool) : CResult Store := do
  let (_, user) ← withUser store poolId login
  let signedOut :=
    if enable then store
    else { store with
      sessions := store.sessions.filter fun row =>
        !(row.poolId == user.poolId && row.username == user.username) }
  return saveUser signedOut { user with enabled := enable }

def adminDeleteUser (store : Store) (poolId login : String) : CResult Store := do
  let (_, user) ← withUser store poolId login
  return deleteUser store user

def adminSetUserPassword (store : Store) (poolId login password : String) (permanent : Bool) :
    CResult Store := do
  let (pool, user) ← withUser store poolId login
  let (_, after) ← setPassword store pool user password permanent
  return after

def adminUserGlobalSignOut (store : Store) (poolId login : String) (now : Int) :
    CResult Store := do
  let (_, user) ← withUser store poolId login
  return Cognito.globalSignOut store user now

def adminUpdateUserAttributes (store : Store) (poolId login : String)
    (attributes : List (String × String)) : CResult Store := do
  let (pool, user) ← withUser store poolId login
  let (_, after) ← updateAttributes store pool user attributes
  return after

def adminDeleteUserAttributes (store : Store) (poolId login : String) (names : List String) :
    CResult Store := do
  let (_, user) ← withUser store poolId login
  rejectIf ("sub" ∈ names)
    (err "InvalidParameterException" "Cannot delete the attribute sub")
  return saveUser store { user with
    attributes := names.foldl (fun attributes name => attributes.erase name) user.attributes }

def adminConfirmSignUp (store : Store) (poolId login : String) : CResult Store := do
  let (pool, user) ← withUser store poolId login
  confirmUser store pool user

def adminResetUserPassword (store : Store) (poolId login : String) (now : Int) :
    CResult Store := do
  let (_, user) ← withUser store poolId login
  rejectIf (user.enabled = false) (notAuthorized "User is disabled.")
  let reset :=
    if user.status ≠ .unconfirmed then { user with status := .resetRequired } else user
  return (setCode (saveUser store reset) reset "reset" now).2

/-! ### Requests of users -/

/-- Tokens, or a challenge, for a password that was checked. -/
def signIn (store : Store) (ctx : Ctx) (pool : Pool) (client : Client) (outcome : AuthOutcome)
    (now : Int) : Response × Store :=
  match outcome with
  | .ok user =>
    let (tokens, after) := issueApiTokens store ctx pool client user now
    (.tokens tokens, after)
  | .newPasswordRequired user =>
    let (session, after) := createChallenge store client user "NEW_PASSWORD_REQUIRED" now
    (.challenge session user, after)

/-- InitiateAuth and AdminInitiateAuth (which names a pool) with a password. -/
def initiateAuth (store : Store) (ctx : Ctx) (poolId : Option String)
    (clientId login password : String) (now : Int) : CResult (Response × Store) := do
  let client ← getClient store poolId clientId
  let isAdminFlow := poolId.isSome
  let allowed :=
    if isAdminFlow then client.allowsFlow "ALLOW_ADMIN_USER_PASSWORD_AUTH" "ADMIN_NO_SRP_AUTH"
    else client.allowsFlow "ALLOW_USER_PASSWORD_AUTH" "USER_PASSWORD_AUTH"
  rejectIf (allowed = false) (err "InvalidParameterException"
    ((if isAdminFlow then "ADMIN_USER_PASSWORD_AUTH" else "USER_PASSWORD_AUTH") ++
      " flow not enabled for this client"))
  let pool ← getPool store client.poolId
  let outcome ← authenticate store pool (some client) login password
  return signIn store ctx pool client outcome now

def initiateRefresh (store : Store) (ctx : Ctx) (poolId : Option String) (clientId token : String)
    (now : Int) : CResult (TokenSet × Store) := do
  let client ← getClient store poolId clientId
  rejectIf (client.allowsFlow "ALLOW_REFRESH_TOKEN_AUTH" "REFRESH_TOKEN_AUTH" = false)
    (err "InvalidParameterException" "Refresh Token auth flow not enabled for this client")
  Cognito.refresh store ctx client token now

/-- The `userAttributes.*` of a challenge response. -/
def updateGiven (store : Store) (pool : Pool) (user : User) (attributes : List (String × String)) :
    CResult (User × Store) :=
  if attributes.isEmpty then .ok (user, store) else updateAttributes store pool user attributes

def respondToAuthChallenge (store : Store) (ctx : Ctx) (poolId : Option String)
    (clientId session newPassword : String) (attributes : List (String × String)) (now : Int) :
    CResult (TokenSet × Store) := do
  let client ← getClient store poolId clientId
  let pool ← getPool store client.poolId
  let (user, taken) ← takeChallenge store client session "NEW_PASSWORD_REQUIRED" now
  rejectIf (user.enabled = false) (notAuthorized "User is disabled.")
  let (changed, stored) ← setPassword taken pool user newPassword true
  let (updated, after) ← updateGiven stored pool changed attributes
  return issueApiTokens after ctx pool client updated now

def globalSignOutByToken (store : Store) (ctx : Ctx) (token : String) (now : Int) :
    CResult Store := do
  let user ← accessUser store ctx token now
  return Cognito.globalSignOut store user now

def changePassword (store : Store) (ctx : Ctx) (token previous proposed : String) (now : Int) :
    CResult Store := do
  let user ← accessUser store ctx token now
  rejectIf (verifyPassword user previous = false) (notAuthorized badCredentials)
  let pool ← getPool store user.poolId
  let (_, after) ← setPassword store pool user proposed true
  return after

def revokeToken (store : Store) (clientId : String) (secret : Option String) (token : String) :
    CResult (Bool × Store) := do
  let client ← getClient store none clientId
  rejectIf (client.secret.isSome ∧ secret ≠ client.secret)
    (notAuthorized "Client secret is invalid.")
  revokeRefresh store client token

def signUp (store : Store) (clientId login password : String)
    (attributes : List (String × String)) (now : Int) : CResult (User × Store) := do
  let client ← getClient store none clientId
  let pool ← getPool store client.poolId
  rejectIf (pool.adminCreateOnly) (notAuthorized "SignUp is not permitted for this user pool")
  checkPolicy pool password
  let (user, after) ← createUser store pool
    { login, attributes, password := some password, status := .unconfirmed } now
  return (user, (setCode after user "signup" now).2)

def confirmSignUp (store : Store) (clientId login code : String) (now : Int) : CResult Store := do
  let (pool, user) ← withClientUser store clientId login
  rejectIf (user.status ≠ .unconfirmed) (cannotConfirm user)
  let checked ← checkCode store user "signup" code now
  confirmUser checked pool user

/-- `send_code`: ResendConfirmationCode (`signup`) and ForgotPassword (`reset`). -/
def sendCode (store : Store) (clientId login kind : String) (now : Int) :
    CResult (Option String × Store) := do
  let client ← getClient store none clientId
  let pool ← getPool store client.poolId
  match findUser store pool login with
  | none =>
    if client.preventUserExistenceErrors then return (some "u***@e***", store)
    else throw (err "UserNotFoundException" "Username/client id combination not found.")
  | some user =>
    rejectIf (user.enabled = false) (notAuthorized "User is disabled.")
    rejectIf (kind = "signup" ∧ user.status ≠ .unconfirmed)
      (err "InvalidParameterException" "User is already confirmed.")
    return (codeDelivery user, (setCode store user kind now).2)

/-- The attributes of a user whose password was reset with a code. -/
def resetAttributes (user : User) : Attributes :=
  if (user.attr "email").isSome then user.attributes.insert "email_verified" "true"
  else user.attributes

def confirmForgotPassword (store : Store) (clientId login code password : String) (now : Int) :
    CResult Store := do
  let (pool, user) ← withClientUser store clientId login
  let checked ← checkCode store user "reset" code now
  let (changed, after) ← setPassword checked pool user password true
  return saveUser after { changed with attributes := resetAttributes changed }

/-! ### The hosted UI -/

/-- The first form of `login_post`: a session is created later, by another transaction. -/
def login (store : Store) (pool : Pool) (client : Client) (name password : String) (now : Int) :
    CResult (Response × Store) := do
  let outcome ← authenticate store pool (some client) name password
  match outcome with
  | .ok user => return (.user user, store)
  | .newPasswordRequired user =>
    let (session, after) := createChallenge store client user "NEW_PASSWORD_REQUIRED" now
    return (.challenge session user, after)

/-- The form of `login_post` with a new password. -/
def loginNewPassword (store : Store) (pool : Pool) (client : Client) (session newPassword : String)
    (now : Int) : CResult (User × Store) := do
  let (user, taken) ← takeChallenge store client session "NEW_PASSWORD_REQUIRED" now
  rejectIf (user.enabled = false) (notAuthorized "User is disabled.")
  setPassword taken pool user newPassword true

/-- The implicit flow of `complete`. -/
def implicitTokens (store : Store) (ctx : Ctx) (pool : Pool) (client : Client) (user : User)
    (scopes : List String) (nonce : Option String) (authTime now : Int) : TokenSet × Store :=
  issueTokens store ctx pool client user
    { scopes, nonce, authTime, idToken := scopes.any (· == "openid"), refresh := false
      originJti := none } now

/-- The verifier answers the challenge that is stored with the code, if there is one. -/
def pkceSatisfied (code : AuthCode) (verifier : Option String) : Bool :=
  code.codeChallenge.all fun challenge =>
    verifier.any fun verifier =>
      verifyPkce challenge (code.codeChallengeMethod.getD "plain") verifier

/-- The authorization_code grant of `token`. Codes are consumed even when the exchange fails, so
the transaction commits: a failure travels in the inner result. -/
def exchange (store : Store) (ctx : Ctx) (client : Client) (code redirectUri : String)
    (verifier : Option String) (now : Int) : CResult (Except String TokenSet × Store) :=
  match takeCode store code now with
  | (none, spent) => .ok (.error "invalid_grant", spent)
  | (some issued, spent) =>
    if issued.clientId ≠ client.clientId ∨ issued.redirectUri ≠ redirectUri then
      .ok (.error "invalid_grant", spent)
    else if !pkceSatisfied issued verifier then .ok (.error "invalid_grant", spent)
    else do
      let pool ← getPool spent client.poolId
      match userByUsername spent pool.id issued.username with
      | none => return (.error "invalid_grant", spent)
      | some user =>
        if !user.enabled then return (.error "invalid_grant", spent)
        else
          let scopes := splitWhitespace issued.scope
          let (tokens, after) := issueTokens spent ctx pool client user
            { scopes, nonce := issued.nonce, authTime := issued.authTime
              idToken := scopes.any (· == "openid"), refresh := true, originJti := none } now
          return (.ok tokens, after)

/-! ### All transactions -/

/-- The answer of a transaction that returns nothing. -/
def noAnswer (result : CResult Store) : CResult (Response × Store) :=
  result.map fun after => (.done, after)

/-- An answer made of the value that a transaction returns. -/
def answerWith {α : Type} (answer : α → Response) (result : CResult (α × Store)) :
    CResult (Response × Store) :=
  result.map fun pair => (answer pair.1, pair.2)

/-- **What a transaction does.** -/
def transact (ctx : Ctx) (store : Store) (input : Input) : CResult (Response × Store) :=
  let now := input.now
  match input.tx with
  | .createUserPool name data => answerWith .pool (createUserPool store name data)
  | .updateUserPool poolId updates => noAnswer (updateUserPool store poolId updates)
  | .deleteUserPool poolId => noAnswer (deletePool store poolId)
  | .createUserPoolClient poolId name generateSecret data =>
    answerWith .client (createClient store poolId name generateSecret data)
  | .updateUserPoolClient poolId clientId name data =>
    answerWith .client (updateUserPoolClient store poolId clientId name data)
  | .deleteUserPoolClient poolId clientId => noAnswer (deleteClient store poolId clientId)
  | .adminCreateUser poolId login attributes temporaryPassword messageAction emailMedium =>
    answerWith .user (adminCreateUser store poolId login attributes temporaryPassword messageAction
      emailMedium now)
  | .adminSetEnabled poolId login enable => noAnswer (adminSetEnabled store poolId login enable)
  | .adminDeleteUser poolId login => noAnswer (adminDeleteUser store poolId login)
  | .adminSetUserPassword poolId login password permanent =>
    noAnswer (adminSetUserPassword store poolId login password permanent)
  | .adminUserGlobalSignOut poolId login =>
    noAnswer (adminUserGlobalSignOut store poolId login now)
  | .adminUpdateUserAttributes poolId login attributes =>
    noAnswer (adminUpdateUserAttributes store poolId login attributes)
  | .adminDeleteUserAttributes poolId login names =>
    noAnswer (adminDeleteUserAttributes store poolId login names)
  | .adminConfirmSignUp poolId login => noAnswer (adminConfirmSignUp store poolId login)
  | .adminResetUserPassword poolId login => noAnswer (adminResetUserPassword store poolId login now)
  | .initiateAuth poolId clientId login password =>
    initiateAuth store ctx poolId clientId login password now
  | .initiateRefresh poolId clientId token =>
    answerWith .tokens (initiateRefresh store ctx poolId clientId token now)
  | .respondToAuthChallenge poolId clientId session newPassword attributes =>
    answerWith .tokens (respondToAuthChallenge store ctx poolId clientId session newPassword
      attributes now)
  | .getUser token => (accessUser store ctx token now).map fun user => (.user user, store)
  | .globalSignOut token => noAnswer (globalSignOutByToken store ctx token now)
  | .changePassword token previous proposed =>
    noAnswer (changePassword store ctx token previous proposed now)
  | .revokeToken clientId secret token =>
    answerWith .revoked (revokeToken store clientId secret token)
  | .signUp clientId login password attributes =>
    answerWith (fun user => .signedUp user.sub (codeDelivery user))
      (signUp store clientId login password attributes now)
  | .confirmSignUp clientId login code => noAnswer (confirmSignUp store clientId login code now)
  | .resendConfirmationCode clientId login =>
    answerWith .delivery (sendCode store clientId login "signup" now)
  | .forgotPassword clientId login =>
    answerWith .delivery (sendCode store clientId login "reset" now)
  | .confirmForgotPassword clientId login code password =>
    noAnswer (confirmForgotPassword store clientId login code password now)
  | .sessionUser poolId session => .ok (.session (sessionUser store poolId session now), store)
  | .login pool client name password => login store pool client name password now
  | .loginNewPassword pool client session newPassword =>
    answerWith .user (loginNewPassword store pool client session newPassword now)
  | .createSession user authTime =>
    let (session, after) := createSession store user authTime now
    .ok (.created session, after)
  | .createCode poolId code =>
    let (key, after) := createCode store poolId code now
    .ok (.created key, after)
  | .implicitTokens pool client user scopes nonce authTime =>
    let (tokens, after) := implicitTokens store ctx pool client user scopes nonce authTime now
    .ok (.tokens tokens, after)
  | .exchange client code redirectUri verifier =>
    answerWith .exchanged (exchange store ctx client code redirectUri verifier now)
  | .refresh client token => answerWith .tokens (refresh store ctx client token now)
  | .revoke client token => answerWith .revoked (revokeRefresh store client token)
  | .deleteSession session => .ok (.done, deleteSession store session)

/-- **A transaction**: committed when it succeeds, rolled back when it fails. -/
def perform (ctx : Ctx) : Store → Input → CResult Response × Store :=
  commit (transact ctx)

abbrev CognitoEvent := Event Store Input (CResult Response)

/-- **A run of Cognito** on a database that was empty at first: transactions of any requests, in
any order, at times that do not decrease. -/
structure CognitoRun (ctx : Ctx) (history : List CognitoEvent) (store : Store) : Prop where
  run : Run (perform ctx) Store.empty history store
  clocked : Clocked Input.now history

namespace CognitoRun

variable {ctx : Ctx}

theorem of_inputs (ctx : Ctx) (inputs : List Input)
    (clock : inputs.Pairwise fun first second => first.now ≤ second.now) :
    CognitoRun ctx (Run.trace (perform ctx) Store.empty inputs)
      (Run.final (perform ctx) Store.empty inputs) := by
  refine ⟨Run.of_trace (perform ctx) inputs Store.empty, ?_⟩
  rw [← Run.trace_inputs (perform ctx) inputs Store.empty, List.pairwise_map] at clock
  exact clock

/-- The run on a list of inputs, cut at one of them. -/
theorem of_cut (ctx : Ctx) (past : List Input) (input : Input) (rest : List Input)
    (clock : (past ++ input :: rest).Pairwise fun first second => first.now ≤ second.now) :
    CognitoRun ctx
      (Run.trace (perform ctx) Store.empty past ++
        Event.of (perform ctx) (Run.final (perform ctx) Store.empty past) input ::
          Run.trace (perform ctx) (Run.final (perform ctx) Store.empty (past ++ [input])) rest)
      (Run.final (perform ctx) Store.empty (past ++ input :: rest)) := by
  have run := of_inputs ctx (past ++ input :: rest) clock
  rw [Run.trace_append] at run
  rw [Run.final_append (perform ctx) Store.empty past [input]]
  exact run

theorem around {past rest : List CognitoEvent} {event : CognitoEvent} {store : Store}
    (served : CognitoRun ctx (past ++ event :: rest) store) :
    CognitoRun ctx past event.before ∧ event.Taken (perform ctx) ∧
      Run (perform ctx) event.after rest store :=
  ⟨⟨served.run.around.1, (List.pairwise_append.mp served.clocked).1⟩, served.run.around.2⟩

/-- The clock at a transaction is not before the clock at any earlier one. -/
theorem clock {past rest : List CognitoEvent} {event : CognitoEvent} {store : Store}
    (served : CognitoRun ctx (past ++ event :: rest) store) :
    ∀ later ∈ rest, event.input.now ≤ later.input.now :=
  fun later member =>
    (List.pairwise_cons.mp (List.pairwise_append.mp served.clocked).2.1).1 later member

end CognitoRun

end External

/-! ### Sample requests -/

def sampleCtx : Ctx where
  issuerBase := "http://localhost:4566"
  idTokenTtlSeconds := none
  accessTokenTtlSeconds := none
  refreshTokenTtlSeconds := none

/-- The ids that the first pool and its first client get in a run with sample values. -/
def samplePoolId : String := "us-east-1_000000000"

def sampleClientId : String := "client00000000000000000001"

/-- A pool with a weak password policy, and a client that hides which users exist. -/
def samplePool : List Tx :=
  [.createUserPool "pool" (.obj [("Policies", .obj [("PasswordPolicy", .obj [])])]),
    .createUserPoolClient samplePoolId "web" false
      (.obj [("PreventUserExistenceErrors", .str "ENABLED")])]

/-- A user with a permanent password. -/
def sampleUser (attributes : List (String × String)) : List Tx :=
  [.adminCreateUser samplePoolId "dev" attributes (some "temporary") (some "SUPPRESS") false,
    .adminSetUserPassword samplePoolId "dev" "password" true]

/-- Transactions at time zero. -/
def sampleInputs (txs : List Tx) : List Input :=
  txs.map fun tx => { now := 0, tx }

/-- The first pool, its client and its user, as they are stored. -/
def samplePoolRow : Pool where
  id := samplePoolId
  name := "pool"
  data := .obj [("Policies", .obj [("PasswordPolicy", .obj [])]),
    ("UsernameConfiguration", .obj [("CaseSensitive", .bool false)])]

def sampleClient : Client where
  clientId := sampleClientId
  poolId := samplePoolId
  name := "web"
  secret := none
  data := .obj [("PreventUserExistenceErrors", .str "ENABLED")]

section Sample

attribute [local instance] sampleExternal Crypto.sample

def sampleUserRow : User where
  poolId := samplePoolId
  username := "dev"
  sub := External.uuid 4
  attributes := ∅
  passwordHash := some (hashPassword "password" sampleSalt)
  passwordSalt := some sampleSalt
  status := .confirmed
  enabled := true
  created := 0
  tokensValidAfter := 0

/-- The store after the transactions. -/
def sampleStore (txs : List Tx) : Store :=
  Run.final (perform sampleCtx) Store.empty (sampleInputs txs)

end Sample

end CloudTwin.Cognito
