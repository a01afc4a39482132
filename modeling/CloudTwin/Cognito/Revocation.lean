/-
**Revocation reaches every derived token.**

The tokens of an authentication, and those that are refreshed from them, name its origin. Revoking
the refresh token, signing the user out or deleting the user leaves no live row under that origin,
and none comes back: a key is never drawn twice. A missing row counts as revoked.

* `validateAccess_ok`, `refresh_ok` — an accepted token has a live origin.
* `Authenticates` and `Stem` — the origin of an authentication, its user and its refresh token, in
  every later state.
* `revocation_reaches` — in every run: after a revocation, the tokens of the authentication are
  refused in all later states, and those of others are accepted exactly as before.
-/

import CloudTwin.Cognito.Users
import CloudTwin.Lib.Table

namespace CloudTwin.Cognito

open Lib Lib.Text

set_option linter.unusedSectionVars false

section External

variable [External] [Crypto]

/-! ### Origins -/

/-- No live row under the origin. -/
def Dead (store : Store) (origin : String) : Prop :=
  ∀ row ∈ store.origins, row.originJti = origin → row.revoked = true

theorem Dead.revoked {store : Store} {origin : String} (dead : Dead store origin) :
    originRevoked store origin = true := by
  unfold originRevoked
  cases found : store.origins.find? fun row => row.originJti == origin with
  | none => rfl
  | some row =>
    have same : row.originJti = origin := by simpa using List.find?_some found
    exact dead row (List.mem_of_find?_eq_some found) same

theorem Dead.stable {before after : Store} {draw : Nat} (dead : Dead before (External.uuid draw))
    (laws : UuidLaws ‹External›) (early : draw < before.drawn) (grows : Grows before after) :
    Dead after (External.uuid draw) :=
  grows.origin_stable laws early (fun row => row.revoked = true)
    (fun _ _ same old => same.revoked old) dead

/-- The claims name the pool, the user and the origin. -/
structure Bears (ctx : Ctx) (claims : Claims) (poolId username origin : String) : Prop where
  issuer : claimText claims "iss" = some (ctx.issuer poolId)
  username : claimText claims "username" = some username
  origin : claimText claims "origin_jti" = some origin

theorem accessClaims_bears (ctx : Ctx) (pool : Pool) (client : Client) (user : User)
    (opts : IssueOpts) (origin eventId jti : String) (seconds : Int) :
    Bears ctx (accessClaims ctx pool client user opts origin eventId jti seconds) pool.id
      user.username origin := by
  refine ⟨?_, ?_, ?_⟩ <;>
  · simp only [claimText, accessClaims, List.foldl_cons, List.foldl_nil, getElem_insert,
      String.reduceEq, if_true, if_false]
    rfl

/-- **An access token that is accepted has a live origin.** -/
theorem validateAccess_ok {store : Store} {ctx : Ctx} {token : String} {now : Int}
    {result : Pool × User × Claims} (done : validateAccess store ctx token now = .ok result) :
    ∃ claims, Crypto.verify token = some claims ∧
      originRevoked store ((claimText claims "origin_jti").getD "") = false := by
  obtain ⟨claims, verified, rest⟩ := bind_ok done
  obtain ⟨_, _, rest⟩ := bind_ok rest
  obtain ⟨_, _, rest⟩ := bind_ok rest
  obtain ⟨_, _, rest⟩ := bind_ok rest
  obtain ⟨_, _, rest⟩ := bind_ok rest
  obtain ⟨_, _, rest⟩ := bind_ok rest
  obtain ⟨_, _, rest⟩ := bind_ok rest
  obtain ⟨_, live, rest⟩ := bind_ok rest
  rw [okOr_ok] at verified
  rw [rejectIf_ok, Bool.not_eq_true] at live
  exact ⟨claims, verified, live⟩

/-- **A refresh token that is accepted has a live origin**, and gives tokens of that origin. -/
theorem refresh_ok {store after : Store} {ctx : Ctx} {client : Client} {token : String}
    {tokens : TokenSet} {now : Int} (done : refresh store ctx client token now = .ok (tokens, after)) :
    ∃ row ∈ store.refreshTokens, row.token = token ∧ originRevoked store row.originJti = false ∧
      ∃ claims, tokens.accessToken = Crypto.sign claims ∧
        claimText claims "origin_jti" = some row.originJti := by
  obtain ⟨row, found, rest⟩ := bind_ok done
  obtain ⟨_, _, rest⟩ := bind_ok rest
  obtain ⟨_, live, rest⟩ := bind_ok rest
  obtain ⟨_, _, rest⟩ := bind_ok rest
  obtain ⟨pool, _, rest⟩ := bind_ok rest
  obtain ⟨user, _, rest⟩ := bind_ok rest
  obtain ⟨_, _, rest⟩ := bind_ok rest
  rw [okOr_ok] at found
  rw [rejectIf_ok, not_or, Bool.not_eq_true (originRevoked store row.originJti)] at live
  have same : (issueTokens store ctx pool client user _ now).1 = tokens :=
    congrArg Prod.fst (Except.ok.inj rest)
  refine ⟨row, List.mem_of_find?_eq_some found, by simpa using List.find?_some found, live.2, ?_⟩
  rw [← same]
  exact ⟨_, rfl, (accessClaims_bears ctx pool client user _ _ _ _ _).origin⟩

/-! ### Authentications -/

/-- **An authentication**: a transaction that issues tokens under a new origin,
`External.uuid middle.drawn`. -/
structure Authenticates (ctx : Ctx) (event : CognitoEvent) (middle : Store) (pool : Pool)
    (client : Client) (user : User) (opts : IssueOpts) (tokens : TokenSet) : Prop where
  grows : Grows event.before middle
  root : opts.originJti = none
  issued : issueTokens middle ctx pool client user opts event.input.now = (tokens, event.after)

/-- The tokens in a response. -/
def Response.issued : Response → Option TokenSet
  | .tokens given => some given
  | .exchanged (.ok given) => some given
  | _ => none

theorem exchange_authenticates {ctx : Ctx} {event : CognitoEvent} {client : Client}
    {code redirectUri : String} {verifier : Option String} {tokens : TokenSet}
    (done : exchange event.before ctx client code redirectUri verifier event.input.now =
      .ok (.ok tokens, event.after)) :
    ∃ middle pool client user opts,
      Authenticates ctx event middle pool client user opts tokens := by
  have took := grows_takeCode event.before code event.input.now
  unfold exchange at done
  split at done
  · cases done
  · rename_i issued spent taken
    rw [taken] at took
    split at done
    · cases done
    · split at done
      · cases done
      · obtain ⟨pool, _, rest⟩ := bind_ok done
        split at rest
        · cases rest
        · rename_i user _
          split at rest
          · cases rest
          · obtain ⟨sameResult, sameStore⟩ := Prod.mk.inj (Except.ok.inj rest)
            exact ⟨spent, pool, client, user, _, took, rfl,
              Prod.ext (Except.ok.inj sameResult) sameStore⟩

/-- **Where tokens come from**: an authentication, or a refresh token. -/
theorem tokens_stem {ctx : Ctx} {event : CognitoEvent} {response : Response} {tokens : TokenSet}
    (taken : event.Taken (perform ctx)) (answered : event.output = .ok response)
    (returned : response.issued = some tokens) :
    (∃ middle pool client user opts,
      Authenticates ctx event middle pool client user opts tokens) ∨
    ∃ client token, refresh event.before ctx client token event.input.now =
      .ok (tokens, event.after) := by
  have done := taken_ok taken answered
  rcases event with ⟨before, input, output, after⟩
  unfold transact at done
  cases tx : input.tx <;> simp only [tx] at done
  case initiateAuth poolId clientId login password =>
    obtain ⟨client, _, rest⟩ := bind_ok done
    obtain ⟨_, _, rest⟩ := bind_ok rest
    obtain ⟨pool, _, rest⟩ := bind_ok rest
    obtain ⟨outcome, _, rest⟩ := bind_ok rest
    cases outcome with
    | newPasswordRequired user =>
      obtain ⟨sameResponse, _⟩ := Prod.mk.inj (Except.ok.inj rest)
      rw [← sameResponse] at returned
      cases returned
    | ok user =>
      obtain ⟨sameResponse, sameStore⟩ := Prod.mk.inj (Except.ok.inj rest)
      rw [← sameResponse] at returned
      exact Or.inl ⟨before, pool, client, user, _, Grows.refl _, rfl,
        Prod.ext (Option.some.inj returned) sameStore⟩
  case initiateRefresh poolId clientId token =>
    obtain ⟨_, made, rfl⟩ := answerWith_ok done
    obtain ⟨client, _, rest⟩ := bind_ok made
    obtain ⟨_, _, rest⟩ := bind_ok rest
    cases returned
    exact Or.inr ⟨client, token, rest⟩
  case respondToAuthChallenge =>
    obtain ⟨_, made, rfl⟩ := answerWith_ok done
    cases returned
    obtain ⟨client, _, rest⟩ := bind_ok made
    obtain ⟨pool, _, rest⟩ := bind_ok rest
    obtain ⟨⟨user, taken⟩, took, rest⟩ := bind_ok rest
    obtain ⟨_, _, rest⟩ := bind_ok rest
    obtain ⟨⟨changed, stored⟩, set, rest⟩ := bind_ok rest
    obtain ⟨⟨updated, written⟩, wrote, rest⟩ := bind_ok rest
    exact Or.inl ⟨written, pool, client, updated, _,
      ((grows_takeChallenge took).trans (grows_setPassword set)).trans (grows_updateGiven wrote),
      rfl, Except.ok.inj rest⟩
  case getUser token =>
    cases found : accessUser before ctx token input.now with
    | error error => rw [found] at done; cases done
    | ok user => rw [found] at done; cases done; cases returned
  case login =>
    obtain ⟨outcome, _, rest⟩ := bind_ok done
    cases outcome <;> cases rest <;> cases returned
  case implicitTokens pool client user scopes nonce authTime =>
    obtain ⟨sameResponse, sameStore⟩ := Prod.mk.inj (Except.ok.inj done)
    rw [← sameResponse] at returned
    exact Or.inl ⟨before, pool, client, user, _, Grows.refl _, rfl,
      Prod.ext (Option.some.inj returned) sameStore⟩
  case exchange client code redirectUri verifier =>
    obtain ⟨result, made, rfl⟩ := answerWith_ok done
    cases result with
    | error error => cases returned
    | ok granted =>
      cases returned
      exact Or.inl (exchange_authenticates made)
  case refresh client token =>
    obtain ⟨_, made, rfl⟩ := answerWith_ok done
    cases returned
    exact Or.inr ⟨client, token, made⟩
  case sessionUser => cases done; cases returned
  case createSession => cases done; cases returned
  case createCode => cases done; cases returned
  case deleteSession => cases done; cases returned
  all_goals first
    | (obtain ⟨_, rfl⟩ := noAnswer_ok done; cases returned)
    | (obtain ⟨_, _, rfl⟩ := answerWith_ok done; cases returned)

/-! ### What stems from an authentication -/

/-- **What a store has of an authentication**: every row under its origin or its refresh token is
that of its user, and no other refresh token has its origin. -/
structure Stem (store : Store) (draw : Nat) (poolId username : String) (tokens : TokenSet) :
    Prop where
  early : draw < store.drawn
  origin : ∀ row ∈ store.origins, row.originJti = External.uuid draw →
    row.poolId = poolId ∧ row.username = username
  derived : ∀ row ∈ store.refreshTokens, row.originJti = External.uuid draw →
    tokens.refreshToken = some row.token
  refresh : ∀ token, tokens.refreshToken = some token →
    (∃ number < store.drawn, token = Crypto.randomToken number) ∧
    ∀ row ∈ store.refreshTokens, row.token = token →
      row.originJti = External.uuid draw ∧ row.poolId = poolId ∧ row.username = username

theorem Stem.stable {before after : Store} {draw : Nat} {poolId username : String}
    {tokens : TokenSet} (stem : Stem before draw poolId username tokens)
    (uuids : UuidLaws ‹External›) (random : CryptoLaws ‹Crypto›) (grows : Grows before after) :
    Stem after draw poolId username tokens := by
  refine ⟨Nat.lt_of_lt_of_le stem.early grows.drawn, ?_, ?_, fun token given => ?_⟩
  · exact grows.origin_stable uuids stem.early _
      (fun old row same holds => ⟨same.poolId ▸ holds.1, same.username ▸ holds.2⟩) stem.origin
  · exact grows.derived_stable uuids stem.early _ (fun old row same holds => same.token ▸ holds)
      stem.derived
  · obtain ⟨⟨number, early, rfl⟩, belongs⟩ := stem.refresh token given
    refine ⟨⟨number, Nat.lt_of_lt_of_le early grows.drawn, rfl⟩, ?_⟩
    exact grows.refresh_stable random early _
      (fun old row same holds => ⟨same.originJti ▸ holds.1, same.poolId ▸ holds.2.1,
        same.username ▸ holds.2.2⟩) belongs

section Authentication

variable {ctx : Ctx} {event : CognitoEvent} {middle : Store} {pool : Pool} {client : Client}
  {user : User} {opts : IssueOpts} {tokens : TokenSet}

/-- The rows that an authentication adds. -/
theorem Authenticates.stored (authenticates :
      Authenticates ctx event middle pool client user opts tokens) :
    middle.drawn < event.after.drawn ∧
    (∃ row, event.after.origins = middle.origins ++ [row] ∧ row.poolId = pool.id ∧
      row.username = user.username) ∧
    (tokens.refreshToken = none ∧ event.after.refreshTokens = middle.refreshTokens ∨
      ∃ row, event.after.refreshTokens = middle.refreshTokens ++ [row] ∧
        tokens.refreshToken = some row.token ∧ row.token = Crypto.randomToken (middle.drawn + 4) ∧
        middle.drawn + 4 < event.after.drawn ∧ row.originJti = External.uuid middle.drawn ∧
        row.poolId = pool.id ∧ row.username = user.username) := by
  obtain ⟨sameTokens, sameStore⟩ := Prod.mk.inj authenticates.issued
  rw [← sameTokens, ← sameStore]
  unfold refreshTokenOf
  rw [authenticates.root]
  by_cases wanted : opts.refresh = true
  · rw [if_pos wanted]
    refine ⟨?_, ⟨_, rfl, rfl, rfl⟩, Or.inr ⟨_, rfl, rfl, rfl, ?_, rfl, rfl, rfl⟩⟩
    · show middle.drawn < middle.drawn + 1 + 3 + 1
      omega
    · show middle.drawn + 4 < middle.drawn + 1 + 3 + 1
      omega
  · rw [if_neg wanted]
    refine ⟨?_, ⟨_, rfl, rfl, rfl⟩, Or.inl ⟨rfl, rfl⟩⟩
    show middle.drawn < middle.drawn + 1 + 3
    omega

theorem Authenticates.stem (authenticates :
      Authenticates ctx event middle pool client user opts tokens) (uuids : UuidLaws ‹External›)
    (random : CryptoLaws ‹Crypto›) {past : List CognitoEvent}
    (run : Run (perform ctx) Store.empty past event.before) :
    Stem event.after middle.drawn pool.id user.username tokens := by
  have grows := (run_grows run).trans authenticates.grows
  have freshUuid : ∀ key, DrawnUuid Store.empty.drawn middle.drawn key →
      key ≠ External.uuid middle.drawn := by
    rintro key ⟨draw, _, most, rfl⟩ same
    have equal := uuids.fresh same
    omega
  obtain ⟨later, ⟨originRow, origins, originPool, originUser⟩, tokenRow⟩ := authenticates.stored
  have oldRefresh : ∀ row ∈ middle.refreshTokens, row.originJti ≠ External.uuid middle.drawn := by
    intro row member
    rcases grows.refreshTokens row member with ⟨_, old, _⟩ | fresh
    · cases old
    · exact freshUuid _ fresh.2
  refine ⟨later, fun row member same => ?_, fun row member same => ?_, fun token given => ?_⟩
  · rw [origins] at member
    rcases List.mem_append.mp member with old | new
    · rcases grows.origins row old with ⟨_, none, _⟩ | fresh
      · cases none
      · exact absurd same (freshUuid _ fresh)
    · rw [List.mem_singleton.mp new]
      exact ⟨originPool, originUser⟩
  · rcases tokenRow with ⟨_, rows⟩ | ⟨own, rows, ownToken, _⟩
    · rw [rows] at member
      exact absurd same (oldRefresh row member)
    · rw [rows] at member
      rcases List.mem_append.mp member with old | new
      · exact absurd same (oldRefresh row old)
      · rw [List.mem_singleton.mp new, ownToken]
  · rcases tokenRow with ⟨none, _⟩ | ⟨own, rows, ownToken, drawn, most, ownOrigin, ownPool, ownUser⟩
    · rw [none] at given
      cases given
    · rw [ownToken] at given
      cases given
      refine ⟨⟨middle.drawn + 4, most, drawn⟩, fun row member same => ?_⟩
      rw [rows] at member
      rcases List.mem_append.mp member with old | new
      · rcases grows.refreshTokens row old with ⟨_, none, _⟩ | ⟨⟨number, _, before, key⟩, _⟩
        · cases none
        · have equal := random.fresh (key.symm.trans (same.trans drawn))
          omega
      · rw [List.mem_singleton.mp new]
        exact ⟨ownOrigin, ownPool, ownUser⟩

end Authentication

/-! ### Revocations -/

/-- `revoke_refresh` succeeds for a refresh token that is known. -/
def RevokesToken (event : CognitoEvent) (token : String) : Prop :=
  event.output = .ok (.revoked true) ∧
    ((∃ client, event.input.tx = .revoke client token) ∨
      ∃ clientId secret, event.input.tx = .revokeToken clientId secret token)

/-- GlobalSignOut or AdminUserGlobalSignOut succeeds for a user. -/
def SignsOut (ctx : Ctx) (event : CognitoEvent) (user : User) : Prop :=
  event.output = .ok .done ∧
    ((∃ poolId login pool, event.input.tx = .adminUserGlobalSignOut poolId login ∧
        withUser event.before poolId login = .ok (pool, user)) ∨
      ∃ token, event.input.tx = .globalSignOut token ∧
        accessUser event.before ctx token event.input.now = .ok user)

/-- AdminDeleteUser succeeds for a user. -/
def Deletes (event : CognitoEvent) (user : User) : Prop :=
  event.output = .ok .done ∧ ∃ poolId login pool, event.input.tx = .adminDeleteUser poolId login ∧
    withUser event.before poolId login = .ok (pool, user)

section Revocation

variable {ctx : Ctx} {event : CognitoEvent}

theorem revokesToken_taken {token : String} (taken : event.Taken (perform ctx))
    (revokes : RevokesToken event token) :
    ∃ client, revokeRefresh event.before client token = .ok (true, event.after) := by
  obtain ⟨answered, kinds⟩ := revokes
  have done := taken_ok taken answered
  unfold transact at done
  rcases kinds with ⟨client, tx⟩ | ⟨clientId, secret, tx⟩
  · rw [tx] at done
    obtain ⟨_, made, same⟩ := answerWith_ok done
    cases same
    exact ⟨client, made⟩
  · rw [tx] at done
    obtain ⟨_, made, same⟩ := answerWith_ok done
    cases same
    obtain ⟨client, _, rest⟩ := bind_ok made
    obtain ⟨_, _, rest⟩ := bind_ok rest
    exact ⟨client, rest⟩

theorem signsOut_taken {user : User} (taken : event.Taken (perform ctx))
    (signsOut : SignsOut ctx event user) :
    event.after = globalSignOut event.before user event.input.now := by
  obtain ⟨answered, kinds⟩ := signsOut
  have done := taken_ok taken answered
  unfold transact at done
  rcases kinds with ⟨poolId, login, pool, tx, found⟩ | ⟨token, tx, found⟩
  · rw [tx] at done
    have made := (noAnswer_ok done).1
    unfold adminUserGlobalSignOut at made
    rw [found] at made
    exact (Except.ok.inj made).symm
  · rw [tx] at done
    have made := (noAnswer_ok done).1
    unfold globalSignOutByToken at made
    rw [found] at made
    exact (Except.ok.inj made).symm

theorem deletes_taken {user : User} (taken : event.Taken (perform ctx))
    (deletes : Deletes event user) : event.after = deleteUser event.before user := by
  obtain ⟨answered, poolId, login, pool, tx, found⟩ := deletes
  have done := taken_ok taken answered
  unfold transact at done
  rw [tx] at done
  have made := (noAnswer_ok done).1
  unfold adminDeleteUser at made
  rw [found] at made
  exact (Except.ok.inj made).symm

end Revocation

section Effect

variable {before after : Store} {draw : Nat} {poolId username : String} {tokens : TokenSet}

/-- Revoking its refresh token leaves the origin dead. -/
theorem Stem.revoked (stem : Stem before draw poolId username tokens) {client : Client}
    {token : String} (given : tokens.refreshToken = some token)
    (done : revokeRefresh before client token = .ok (true, after)) :
    Dead after (External.uuid draw) := by
  rcases revokeRefresh_ok done with ⟨unknown, _⟩ | ⟨row, member, same, _, rfl⟩
  · cases unknown
  · have origin := ((stem.refresh token given).2 row member same).1
    intro changed memberChanged named
    obtain ⟨old, _, rfl⟩ := List.mem_map.mp memberChanged
    by_cases marked : old.originJti = row.originJti
    · rw [if_pos marked]
    · rw [if_neg marked] at named
      exact absurd (named.trans origin.symm) marked

/-- Signing its user out leaves the origin dead. -/
theorem Stem.signedOut (stem : Stem before draw poolId username tokens) {user : User}
    (own : user.Is poolId username) (now : Int) :
    Dead (globalSignOut before user now) (External.uuid draw) := by
  intro row member named
  obtain ⟨old, memberOld, rfl⟩ := List.mem_map.mp member
  by_cases marked : old.poolId = user.poolId ∧ old.username = user.username
  · rw [if_pos marked]
  · rw [if_neg marked] at named
    have belongs := stem.origin old memberOld named
    exact absurd ⟨belongs.1.trans own.1.symm, belongs.2.trans own.2.symm⟩ marked

/-- Deleting its user leaves the origin dead. -/
theorem Stem.deleted (stem : Stem before draw poolId username tokens) {user : User}
    (own : user.Is poolId username) : Dead (deleteUser before user) (External.uuid draw) := by
  intro row member named
  obtain ⟨memberOld, kept⟩ := List.mem_filter.mp member
  have belongs := stem.origin row memberOld named
  rw [belongs.1, belongs.2, own.1, own.2] at kept
  simp at kept

end Effect

/-! ### Acceptance -/

/-- **The tokens of the authentication are refused.** -/
structure Refused (ctx : Ctx) (store : Store) (draw : Nat) (tokens : TokenSet) : Prop where
  access : ∀ token claims, Crypto.verify token = some claims →
    claimText claims "origin_jti" = some (External.uuid draw) →
    ∀ now result, validateAccess store ctx token now ≠ .ok result
  refresh : ∀ token, tokens.refreshToken = some token →
    ∀ client now result, Cognito.refresh store ctx client token now ≠ .ok result

theorem Stem.refused {store : Store} {draw : Nat} {poolId username : String} {tokens : TokenSet}
    (stem : Stem store draw poolId username tokens) (ctx : Ctx)
    (dead : Dead store (External.uuid draw)) : Refused ctx store draw tokens := by
  refine ⟨fun token claims verified named now result done => ?_,
    fun token given client now result done => ?_⟩
  · obtain ⟨found, same, live⟩ := validateAccess_ok done
    rw [verified] at same
    cases same
    rw [named, Option.getD_some, dead.revoked] at live
    cases live
  · obtain ⟨row, member, same, live, _⟩ := refresh_ok done
    rw [((stem.refresh token given).2 row member same).1, dead.revoked] at live
    cases live

/-- **The tokens of the authentication are accepted as before**: access tokens that name its user
and its origin, and its refresh token with a client of its pool. -/
structure Unaffected (ctx : Ctx) (before after : Store) (draw : Nat) (poolId username : String)
    (tokens : TokenSet) : Prop where
  access : ∀ token claims, Crypto.verify token = some claims →
    Bears ctx claims poolId username (External.uuid draw) →
    ∀ now, validateAccess after ctx token now = validateAccess before ctx token now
  refresh : ∀ token, tokens.refreshToken = some token →
    ∀ client : Client, client.poolId = poolId → ∀ now,
      (Cognito.refresh after ctx client token now).map Prod.fst =
        (Cognito.refresh before ctx client token now).map Prod.fst

theorem issuer_injective (ctx : Ctx) : Function.Injective ctx.issuer := by
  intro first second same
  have lists : (ctx.issuer first).toList = (ctx.issuer second).toList := congrArg String.toList same
  simp only [Ctx.issuer, String.toList_append] at lists
  exact String.toList_inj.mp (List.append_cancel_left lists)

/-- The tokens of a set depend on the store only by the count of values drawn. -/
theorem issueTokens_drawn {before after : Store} (drawn : after.drawn = before.drawn) (ctx : Ctx)
    (pool : Pool) (client : Client) (user : User) (opts : IssueOpts) (now : Int) :
    (issueTokens after ctx pool client user opts now).1 =
      (issueTokens before ctx pool client user opts now).1 := by
  unfold issueTokens originOf refreshTokenOf
  cases opts.originJti with
  | none => cases opts.refresh <;> simp [drawn]
  | some origin => cases opts.refresh <;> simp [drawn]

section Unaffected

variable {ctx : Ctx} {before after : Store} {draw : Nat} {poolId username : String}
  {tokens : TokenSet}

/-- **What acceptance depends on.** -/
theorem Stem.unaffected (stem : Stem before draw poolId username tokens)
    (pools : after.pools = before.pools) (drawn : after.drawn = before.drawn)
    (users : userByUsername after poolId username = userByUsername before poolId username)
    (origins : originRevoked after (External.uuid draw) = originRevoked before (External.uuid draw))
    (rows : ∀ token, tokens.refreshToken = some token →
      (after.refreshTokens.find? fun row => row.token == token) =
        before.refreshTokens.find? fun row => row.token == token) :
    Unaffected ctx before after draw poolId username tokens := by
  have samePool : ∀ id, findPool after id = findPool before id := fun id => by
    unfold findPool
    rw [pools]
  refine ⟨fun token claims verified bears now => ?_, fun token given client inPool now => ?_⟩
  · unfold validateAccess
    refine bind_congr_ok fun found same => ?_
    rw [okOr_ok, verified] at same
    cases same
    refine bind_congr_ok fun _ _ => bind_congr_ok fun _ _ => bind_congr_ok fun _ issuer => ?_
    rw [rejectIf_ok, not_not] at issuer
    have id : poolId = afterLast '/' ((claimText claims "iss").getD "") := by
      refine issuer_injective ctx ?_
      rw [← issuer, bears.issuer, Option.getD_some]
    rw [samePool]
    refine bind_congr_ok fun pool found => bind_congr_ok fun named same => ?_
    rw [okOr_ok] at found same
    rw [bears.username] at same
    cases same
    rw [findPool_id found, ← id, users]
    refine bind_congr_ok fun user _ => ?_
    rw [bears.origin, Option.getD_some, origins]
  · unfold Cognito.refresh
    rw [rows token given]
    refine map_bind_congr fun row found => ?_
    rw [okOr_ok] at found
    have same : row.token = token := by simpa using List.find?_some found
    obtain ⟨origin, _, named⟩ :=
      (stem.refresh token given).2 row (List.mem_of_find?_eq_some found) same
    rw [origin, origins]
    refine map_bind_congr fun _ _ => map_bind_congr fun _ _ => map_bind_congr fun _ _ => ?_
    unfold getPool
    rw [samePool]
    refine map_bind_congr fun pool known => ?_
    rw [okOr_ok] at known
    rw [findPool_id known, inPool, named, users]
    refine map_bind_congr fun user _ => map_bind_congr fun _ _ => ?_
    exact congrArg Except.ok (issueTokens_drawn drawn ctx pool client user _ now)

end Unaffected

/-! ### Other users -/

section Others

variable {before : Store} {draw : Nat} {poolId username : String} {tokens : TokenSet} {user : User}

theorem userByUsername_saveUser (store : Store) (other : ¬ user.Is poolId username) :
    userByUsername (saveUser store user) poolId username = userByUsername store poolId username := by
  unfold userByUsername queryUsers
  congr 2
  refine filter_map_same (fun row _ => ?_) fun row _ selected => ?_
  · split <;> rfl
  · simp only [Bool.and_eq_true, beq_iff_eq] at selected
    refine if_neg fun same : row.Is user.poolId user.username => other ?_
    exact ⟨same.1.symm.trans selected.1, same.2.symm.trans selected.2⟩

theorem userByUsername_deleteUser (store : Store) (other : ¬ user.Is poolId username) :
    userByUsername (deleteUser store user) poolId username =
      userByUsername store poolId username := by
  unfold userByUsername queryUsers
  congr 2
  refine filter_filter_same fun row _ selected => ?_
  simp only [Bool.and_eq_true, beq_iff_eq] at selected
  rw [selected.1, selected.2, Bool.not_eq_true', Bool.and_eq_false_iff]
  by_contra both
  simp only [beq_eq_false_iff_ne, not_or, not_not] at both
  exact other ⟨both.1.symm, both.2.symm⟩

/-- Revoking another refresh token changes nothing for the tokens of the authentication. -/
theorem Stem.other_revoked (stem : Stem before draw poolId username tokens) (ctx : Ctx)
    {after : Store} {client : Client} {token : String} (other : tokens.refreshToken ≠ some token)
    (done : revokeRefresh before client token = .ok (true, after)) :
    Unaffected ctx before after draw poolId username tokens := by
  rcases revokeRefresh_ok done with ⟨unknown, _⟩ | ⟨row, member, same, _, rfl⟩
  · cases unknown
  · have different : row.originJti ≠ External.uuid draw := fun origin =>
      other (same ▸ stem.derived row member origin)
    refine stem.unaffected rfl rfl rfl ?_ fun own given => ?_
    · unfold originRevoked
      refine congrArg (fun found => (Option.map OriginRow.revoked found).getD true) ?_
      refine find_map_same (fun origin _ => ?_) fun origin _ selected => ?_
      · split <;> rfl
      · rw [beq_iff_eq] at selected
        exact if_neg fun marked => different (marked.symm.trans selected)
    · refine find_map_same (fun row _ => ?_) fun row _ selected => ?_
      · split <;> rfl
      · rw [beq_iff_eq] at selected
        exact if_neg fun marked => other (given.trans (congrArg some (selected.symm.trans marked)))

/-- Signing another user out changes nothing for the tokens of the authentication. -/
theorem Stem.other_signedOut (stem : Stem before draw poolId username tokens) (ctx : Ctx)
    (other : ¬ user.Is poolId username) (now : Int) :
    Unaffected ctx before (globalSignOut before user now) draw poolId username tokens := by
  refine stem.unaffected rfl rfl ?_ ?_ fun own given => ?_
  · exact userByUsername_saveUser _ other
  · unfold originRevoked
    refine congrArg (fun found => (Option.map OriginRow.revoked found).getD true) ?_
    refine find_map_same (fun origin _ => ?_) fun origin member selected => ?_
    · split <;> rfl
    · rw [beq_iff_eq] at selected
      have belongs := stem.origin origin member selected
      exact if_neg fun marked => other ⟨marked.1.symm.trans belongs.1, marked.2.symm.trans belongs.2⟩
  · refine find_map_same (fun row _ => ?_) fun row member selected => ?_
    · split <;> rfl
    · rw [beq_iff_eq] at selected
      have belongs := (stem.refresh own given).2 row member selected
      exact if_neg fun marked =>
        other ⟨marked.1.symm.trans belongs.2.1, marked.2.symm.trans belongs.2.2⟩

/-- Deleting another user changes nothing for the tokens of the authentication. -/
theorem Stem.other_deleted (stem : Stem before draw poolId username tokens) (ctx : Ctx)
    (other : ¬ user.Is poolId username) :
    Unaffected ctx before (deleteUser before user) draw poolId username tokens := by
  have kept : ∀ {rowPool rowUser : String}, rowPool = poolId → rowUser = username →
      (!(rowPool == user.poolId && rowUser == user.username)) = true := by
    rintro _ _ rfl rfl
    rw [Bool.not_eq_true', Bool.and_eq_false_iff]
    by_contra both
    simp only [beq_eq_false_iff_ne, not_or, not_not] at both
    exact other ⟨both.1.symm, both.2.symm⟩
  refine stem.unaffected rfl rfl (userByUsername_deleteUser _ other) ?_ fun own given => ?_
  · unfold originRevoked
    refine congrArg (fun found => (Option.map OriginRow.revoked found).getD true) ?_
    refine find_filter_same fun origin member selected => ?_
    rw [beq_iff_eq] at selected
    exact kept (stem.origin origin member selected).1 (stem.origin origin member selected).2
  · refine find_filter_same fun row member selected => ?_
    rw [beq_iff_eq] at selected
    have belongs := (stem.refresh own given).2 row member selected
    exact kept belongs.2.1 belongs.2.2

end Others

/-! ### Every run -/

/-- The event revokes the tokens of an authentication: its refresh token, or its user. -/
def Revokes (ctx : Ctx) (event : CognitoEvent) (poolId username : String) (tokens : TokenSet) :
    Prop :=
  (∃ token, RevokesToken event token ∧ tokens.refreshToken = some token) ∨
    ∃ user, (SignsOut ctx event user ∨ Deletes event user) ∧ user.Is poolId username

/-- The event revokes the tokens of another authentication, or of another user. -/
def RevokesOther (ctx : Ctx) (event : CognitoEvent) (poolId username : String)
    (tokens : TokenSet) : Prop :=
  (∃ token, RevokesToken event token ∧ tokens.refreshToken ≠ some token) ∨
    ∃ user, (SignsOut ctx event user ∨ Deletes event user) ∧ ¬ user.Is poolId username

/-- **Revocation reaches every derived token, and no other.** In every run, for every authentication
that was completed before a revocation: if its refresh token is revoked, or its user signed out or
deleted, then in every later state each access token of its origin and its refresh token are
refused; otherwise they are accepted exactly as before. The access tokens that the run returns are
those of an authentication or of a refresh token, and name that origin. -/
theorem revocation_reaches (uuids : UuidLaws ‹External›) (random : CryptoLaws ‹Crypto›) {ctx : Ctx}
    {past rest : List CognitoEvent} {event : CognitoEvent} {store : Store}
    (served : CognitoRun ctx (past ++ event :: rest) store) :
    (∀ issue ∈ past, ∀ middle pool client user opts tokens,
      Authenticates ctx issue middle pool client user opts tokens →
      (Revokes ctx event pool.id user.username tokens →
        Refused ctx store middle.drawn tokens) ∧
      (RevokesOther ctx event pool.id user.username tokens →
        Unaffected ctx event.before event.after middle.drawn pool.id user.username tokens)) ∧
    ∀ issue ∈ past ++ event :: rest, ∀ response tokens, issue.output = .ok response →
      response.issued = some tokens →
      ∃ claims, tokens.accessToken = Crypto.sign claims ∧
        ((∃ middle pool client user opts,
            Authenticates ctx issue middle pool client user opts tokens ∧
            Bears ctx claims pool.id user.username (External.uuid middle.drawn)) ∨
          ∃ row ∈ issue.before.refreshTokens, ∃ client,
            refresh issue.before ctx client row.token issue.input.now =
              .ok (tokens, issue.after) ∧
            claimText claims "origin_jti" = some row.originJti) := by
  refine ⟨fun issue member middle pool client user opts tokens authenticates => ?_,
    fun issue member response tokens answered returned => ?_⟩
  · obtain ⟨runPast, taken, runRest⟩ := served.run.around
    obtain ⟨first, between, rfl⟩ := List.append_of_mem member
    obtain ⟨runFirst, _, runBetween⟩ := runPast.around
    have stem := (authenticates.stem uuids random runFirst).stable uuids random
      (run_grows runBetween)
    have later := (perform_grows taken).trans (run_grows runRest)
    refine ⟨fun revokes => ?_, fun revokes => ?_⟩
    · have dead : Dead event.after (External.uuid middle.drawn) := by
        rcases revokes with ⟨token, revokes, given⟩ | ⟨signed, signsOut | deletes, own⟩
        · obtain ⟨_, done⟩ := revokesToken_taken taken revokes
          exact stem.revoked given done
        · rw [signsOut_taken taken signsOut]
          exact stem.signedOut own _
        · rw [deletes_taken taken deletes]
          exact stem.deleted own
      have early := Nat.lt_of_lt_of_le stem.early (perform_grows taken).drawn
      exact (stem.stable uuids random later).refused ctx
        (dead.stable uuids early (run_grows runRest))
    · rcases revokes with ⟨token, revokes, other⟩ | ⟨signed, signsOut | deletes, other⟩
      · obtain ⟨_, done⟩ := revokesToken_taken taken revokes
        exact stem.other_revoked ctx other done
      · rw [signsOut_taken taken signsOut]
        exact stem.other_signedOut ctx other _
      · rw [deletes_taken taken deletes]
        exact stem.other_deleted ctx other
  · have taken := served.run.taken_of_mem issue member
    rcases tokens_stem taken answered returned with
      ⟨middle, pool, client, user, opts, authenticates⟩ | ⟨client, token, done⟩
    · obtain ⟨sameTokens, _⟩ := Prod.mk.inj authenticates.issued
      refine ⟨_, (congrArg TokenSet.accessToken sameTokens).symm,
        Or.inl ⟨middle, pool, client, user, opts, authenticates, ?_⟩⟩
      have bears := accessClaims_bears ctx pool client user opts
        (originOf middle pool client user opts.originJti).1
      rw [authenticates.root] at bears ⊢
      exact bears _ _ _
    · obtain ⟨row, memberRow, rfl, _, claims, signed, named⟩ := refresh_ok done
      exact ⟨claims, signed, Or.inr ⟨row, memberRow, client, done, named⟩⟩

end External

/-! ### A sign-out -/

section Sample

attribute [local instance] sampleExternal Crypto.sample

/-- The sign-in of the sample user. -/
def sampleSignIn : Tx :=
  .initiateAuth none sampleClientId "dev" "password"

/-- The store before the sample sign-in. -/
def sampleSignedUp : Store :=
  sampleStore (samplePool ++ sampleUser [])

def sampleOpts : IssueOpts where
  scopes := [adminScope]
  nonce := none
  authTime := 0
  idToken := true
  refresh := true
  originJti := none

def sampleTokens : TokenSet :=
  (issueTokens sampleSignedUp sampleCtx samplePoolRow sampleClient sampleUserRow sampleOpts 0).1

/-- After a sign-out, the refresh token of an earlier sign-in is refused. -/
theorem revocation_reaches_sample : ¬ ∃ client now result,
    refresh (sampleStore (samplePool ++ sampleUser [] ++
      [sampleSignIn, .adminUserGlobalSignOut samplePoolId "dev"])) sampleCtx client
      (Crypto.randomToken 11) now = .ok result := by
  rintro ⟨client, now, result, granted⟩
  have uuids : UuidLaws sampleExternal := ⟨sample_laws.fresh, sample_laws.noBar⟩
  have reaches := (revocation_reaches uuids sample_fresh
    (CognitoRun.of_cut sampleCtx (sampleInputs (samplePool ++ sampleUser [] ++ [sampleSignIn]))
      { now := 0, tx := .adminUserGlobalSignOut samplePoolId "dev" } [] (by decide))).1
  have refused := (reaches (Event.of (perform sampleCtx) sampleSignedUp
      { now := 0, tx := sampleSignIn }) (List.mem_of_getElem? (i := 4) rfl) sampleSignedUp
    samplePoolRow sampleClient sampleUserRow sampleOpts sampleTokens
    ⟨Grows.refl _, rfl, rfl⟩).1
      (Or.inr ⟨sampleUserRow, Or.inl ⟨rfl, Or.inl ⟨_, _, samplePoolRow, rfl, rfl⟩⟩, rfl, rfl⟩)
  exact refused.refresh _ rfl client now result granted

end Sample

end CloudTwin.Cognito
