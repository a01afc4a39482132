/-
**What sign-in and password requests reveal about the existence of a user.**

A client with `PreventUserExistenceErrors=ENABLED` answers for a missing user as for a wrong
password, or as if a code had been sent. A user who exists is checked further before the answer: a
disabled one is refused as disabled before the password is looked at, and a confirmed one is told
that there is nothing to confirm.

* `existence_hidden` — for each of the three operations, exactly when the answers with and without
  the user agree.
* `existence_revealed` — a disabled user of a reachable store.
-/

import CloudTwin.Cognito.Requests

namespace CloudTwin.Cognito

open Lib

set_option linter.unusedSectionVars false

/-- Success, or the code and message of the error. -/
def outcome {α : Type} (result : CResult α) : CResult Unit :=
  result.map fun _ => ()

/-- Success (`none`), or the kind of the error. -/
def kind {α : Type} (result : CResult α) : Option String :=
  match result with
  | .ok _ => none
  | .error error => some error.code

section External

variable [External] [Crypto]

/-- **Two stores that differ in whether the login names a user**: the same pools and clients, and a
user in one of them. -/
structure Differ (present absent : Store) (poolId : Option String) (client : Client) (pool : Pool)
    (login : String) (user : User) : Prop where
  knownClient : getClient present poolId client.clientId = .ok client
  knownPool : getPool present client.poolId = .ok pool
  samePools : absent.pools = present.pools
  sameClients : absent.clients = present.clients
  found : findUser present pool login = some user
  missing : findUser absent pool login = none

variable {present absent : Store} {poolId : Option String} {client : Client} {pool : Pool}
  {login : String} {user : User}

theorem Differ.clientAbsent (differ : Differ present absent poolId client pool login user) :
    getClient absent poolId client.clientId = .ok client := by
  rw [← differ.knownClient]
  unfold getClient findClient
  rw [differ.sameClients]

theorem Differ.poolAbsent (differ : Differ present absent poolId client pool login user) :
    getPool absent client.poolId = .ok pool := by
  rw [← differ.knownPool]
  unfold getPool findPool
  rw [differ.samePools]

theorem Differ.anyPool (differ : Differ present absent poolId client pool login user) :
    Differ present absent none client pool login user := by
  refine { differ with knownClient := ?_ }
  have found := differ.knownClient
  unfold getClient at found ⊢
  rw [okOr_ok] at found ⊢
  rw [Option.filter_eq_some_iff] at found ⊢
  exact ⟨found.1, rfl⟩

/-- The client accepts the password flow: the one for administrators if a pool is named. -/
def passwordFlowAllowed (client : Client) (poolId : Option String) : Bool :=
  if poolId.isSome then client.allowsFlow "ALLOW_ADMIN_USER_PASSWORD_AUTH" "ADMIN_NO_SRP_AUTH"
  else client.allowsFlow "ALLOW_USER_PASSWORD_AUTH" "USER_PASSWORD_AUTH"

/-- The error of a flow that the client does not allow. -/
def flowRefused (poolId : Option String) : CogError :=
  err "InvalidParameterException"
    ((if poolId.isSome then "ADMIN_USER_PASSWORD_AUTH" else "USER_PASSWORD_AUTH") ++
      " flow not enabled for this client")

theorem initiateAuth_outcome {store : Store} (ctx : Ctx) (password : String) (now : Int)
    (known : getClient store poolId client.clientId = .ok client)
    (inPool : getPool store client.poolId = .ok pool) :
    outcome (initiateAuth store ctx poolId client.clientId login password now) =
      if passwordFlowAllowed client poolId = true then
        outcome (authenticate store pool (some client) login password)
      else .error (flowRefused poolId) := by
  unfold initiateAuth
  simp only [known, inPool, bind, Except.bind]
  by_cases allowed : passwordFlowAllowed client poolId = true
  · have passes : (if poolId.isSome = true then
        client.allowsFlow "ALLOW_ADMIN_USER_PASSWORD_AUTH" "ADMIN_NO_SRP_AUTH"
        else client.allowsFlow "ALLOW_USER_PASSWORD_AUTH" "USER_PASSWORD_AUTH") = true := allowed
    rw [passes, if_pos allowed]
    simp only [rejectIf, Bool.true_eq_false, if_false]
    cases authenticate store pool (some client) login password with
    | error error => rfl
    | ok outcome => rfl
  · rw [Bool.not_eq_true] at allowed
    have refused : (if poolId.isSome = true then
        client.allowsFlow "ALLOW_ADMIN_USER_PASSWORD_AUTH" "ADMIN_NO_SRP_AUTH"
        else client.allowsFlow "ALLOW_USER_PASSWORD_AUTH" "USER_PASSWORD_AUTH") = false := allowed
    rw [refused, allowed]
    simp only [rejectIf, if_true, Bool.false_eq_true, if_false]
    rfl

/-- Without the user, InitiateAuth answers as for a wrong password. -/
theorem authenticate_missing {store : Store} (password : String)
    (prevents : client.preventUserExistenceErrors = true)
    (missing : findUser store pool login = none) :
    authenticate store pool (some client) login password =
      .error (notAuthorized badCredentials) := by
  unfold authenticate
  rw [missing]
  simp [prevents]

/-- With the user, a wrong password is told from a disabled user. -/
theorem authenticate_wrong {store : Store} {password : String}
    (found : findUser store pool login = some user)
    (wrong : verifyPassword user password = false) :
    authenticate store pool (some client) login password =
      .error (notAuthorized (if user.enabled then badCredentials else "User is disabled.")) := by
  unfold authenticate
  rw [found]
  cases enabled : user.enabled with
  | false => simp [enabled]
  | true => simp [enabled, wrong]

theorem sendCode_missing {store : Store} (codeKind : String) (now : Int)
    (known : getClient store none client.clientId = .ok client)
    (inPool : getPool store client.poolId = .ok pool)
    (prevents : client.preventUserExistenceErrors = true)
    (missing : findUser store pool login = none) :
    kind (sendCode store client.clientId login codeKind now) = none := by
  unfold sendCode
  simp only [known, inPool, bind, Except.bind, missing, prevents, if_true]
  rfl

theorem sendCode_found {store : Store} (codeKind : String) (now : Int)
    (known : getClient store none client.clientId = .ok client)
    (inPool : getPool store client.poolId = .ok pool)
    (found : findUser store pool login = some user) :
    kind (sendCode store client.clientId login codeKind now) =
      if user.enabled = false then some "NotAuthorizedException"
      else if codeKind = "signup" ∧ user.status ≠ .unconfirmed then
        some "InvalidParameterException"
      else none := by
  unfold sendCode
  simp only [known, inPool, bind, Except.bind, found, rejectIf]
  by_cases disabled : user.enabled = false
  · rw [if_pos disabled, if_pos disabled]
    rfl
  · rw [if_neg disabled, if_neg disabled]
    by_cases settled : codeKind = "signup" ∧ user.status ≠ .unconfirmed
    · rw [if_pos settled]
      simp only [if_pos settled]
      rfl
    · rw [if_neg settled]
      simp only [if_neg settled]
      rfl

/-- **When existence is hidden.** InitiateAuth and ForgotPassword hide exactly the users that are
enabled (InitiateAuth also hides all others behind a flow that the client does not allow), and
ResendConfirmationCode hides exactly the enabled users that are not confirmed yet. -/
theorem existence_hidden (ctx : Ctx) (password : String) (now : Int)
    (differ : Differ present absent poolId client pool login user)
    (prevents : client.preventUserExistenceErrors = true)
    (wrong : verifyPassword user password = false) :
    (outcome (initiateAuth present ctx poolId client.clientId login password now) =
        outcome (initiateAuth absent ctx poolId client.clientId login password now) ↔
      (passwordFlowAllowed client poolId = true → user.enabled = true)) ∧
    (kind (sendCode present client.clientId login "reset" now) =
        kind (sendCode absent client.clientId login "reset" now) ↔ user.enabled = true) ∧
    (kind (sendCode present client.clientId login "signup" now) =
        kind (sendCode absent client.clientId login "signup" now) ↔
      user.enabled = true ∧ user.status = .unconfirmed) := by
  have any := differ.anyPool
  refine ⟨?_, ?_, ?_⟩
  · rw [initiateAuth_outcome ctx password now differ.knownClient differ.knownPool,
      initiateAuth_outcome ctx password now differ.clientAbsent differ.poolAbsent]
    by_cases allowed : passwordFlowAllowed client poolId = true
    · rw [if_pos allowed, if_pos allowed, authenticate_missing password prevents differ.missing,
        authenticate_wrong differ.found wrong]
      cases enabled : user.enabled with
      | true => simp
      | false => simp [outcome, Except.map, notAuthorized, err, badCredentials, allowed]
    · simp [allowed]
  · rw [sendCode_found "reset" now any.knownClient any.knownPool any.found,
      sendCode_missing "reset" now any.clientAbsent any.poolAbsent prevents any.missing]
    cases user.enabled with
    | true => simp
    | false => simp
  · rw [sendCode_found "signup" now any.knownClient any.knownPool any.found,
      sendCode_missing "signup" now any.clientAbsent any.poolAbsent prevents any.missing]
    cases user.enabled with
    | true => by_cases open_ : user.status = .unconfirmed <;> simp [open_]
    | false => simp

end External

/-! ### A disabled user -/

section Sample

attribute [local instance] sampleExternal Crypto.sample

/-- A disabled user is told from a missing one by InitiateAuth and ForgotPassword. -/
theorem existence_revealed : ∃ user,
    Differ
      (sampleStore (samplePool ++ sampleUser [] ++ [.adminSetEnabled samplePoolId "dev" false]))
      (sampleStore samplePool) none sampleClient samplePoolRow "dev" user ∧
    sampleClient.preventUserExistenceErrors = true ∧ verifyPassword user "wrong" = false ∧
    outcome (initiateAuth
        (sampleStore (samplePool ++ sampleUser [] ++ [.adminSetEnabled samplePoolId "dev" false]))
        sampleCtx none sampleClientId "dev" "wrong" 0) ≠
      outcome (initiateAuth (sampleStore samplePool) sampleCtx none sampleClientId "dev" "wrong" 0) ∧
    kind (sendCode
        (sampleStore (samplePool ++ sampleUser [] ++ [.adminSetEnabled samplePoolId "dev" false]))
        sampleClientId "dev" "reset" 0) ≠
      kind (sendCode (sampleStore samplePool) sampleClientId "dev" "reset" 0) :=
  ⟨{ sampleUserRow with enabled := false }, ⟨rfl, rfl, rfl, rfl, rfl, rfl⟩, by decide,
    by decide, by decide, by decide⟩

/-- An enabled user is not told from a missing one by InitiateAuth. -/
theorem existence_hidden_sample :
    outcome (initiateAuth (sampleStore (samplePool ++ sampleUser [])) sampleCtx none sampleClientId
      "dev" "wrong" 0) =
    outcome (initiateAuth (sampleStore samplePool) sampleCtx none sampleClientId "dev" "wrong" 0) :=
  (existence_hidden sampleCtx "wrong" 0
    (⟨rfl, rfl, rfl, rfl, rfl, rfl⟩ : Differ (sampleStore (samplePool ++ sampleUser []))
      (sampleStore samplePool) none sampleClient samplePoolRow "dev" sampleUserRow)
    (by decide) (by decide)).1.mpr fun _ => rfl

end Sample

end CloudTwin.Cognito
