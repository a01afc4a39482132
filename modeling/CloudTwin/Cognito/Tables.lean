/-
**What transactions do to the tables of random keys.**

Authorization codes, hosted-UI sessions, origins, refresh tokens and challenges are rows under a key
that is drawn at random when the row is made. `Grows` says what a transaction can do to them: drop a
row, mark it used or revoked, or add one under a key that was never drawn before. It is reflexive
and transitive, so that a transaction grows because each function that it calls does.

* `transact_grows` and `run_grows` — every transaction grows, and so does every run.
* `Grows.code_stable` and its siblings — what holds of the rows under a key that was drawn earlier
  goes on to hold.
-/

import CloudTwin.Cognito.Requests

namespace CloudTwin.Cognito

open Lib

set_option linter.unusedSectionVars false

/-- A code stays what it stands for, and stays used. -/
structure SameCode (old row : AuthCodeRow) : Prop where
  code : old.code = row.code
  poolId : old.poolId = row.poolId
  issued : old.issued = row.issued
  expiresAt : old.expiresAt = row.expiresAt
  used : old.used = true → row.used = true

/-- An origin stays that of its user, and stays revoked. -/
structure SameOrigin (old row : OriginRow) : Prop where
  originJti : old.originJti = row.originJti
  poolId : old.poolId = row.poolId
  username : old.username = row.username
  revoked : old.revoked = true → row.revoked = true

/-- A refresh token stays that of its user and origin, and stays revoked. -/
structure SameRefresh (old row : RefreshRow) : Prop where
  token : old.token = row.token
  poolId : old.poolId = row.poolId
  username : old.username = row.username
  originJti : old.originJti = row.originJti
  revoked : old.revoked = true → row.revoked = true

section External

variable [External] [Crypto]

/-- The key was drawn between the two counts. -/
def DrawnUuid (low high : Nat) (key : String) : Prop :=
  ∃ draw, low ≤ draw ∧ draw < high ∧ key = External.uuid draw

def DrawnToken (low high : Nat) (key : String) : Prop :=
  ∃ draw, low ≤ draw ∧ draw < high ∧ key = Crypto.randomToken draw

/-- **What a transaction can do to the tables of random keys.** -/
structure Grows (before after : Store) : Prop where
  drawn : before.drawn ≤ after.drawn
  authCodes : ∀ row ∈ after.authCodes, (∃ old ∈ before.authCodes, SameCode old row) ∨
    DrawnUuid before.drawn after.drawn row.code
  sessions : ∀ row ∈ after.sessions, row ∈ before.sessions ∨
    DrawnToken before.drawn after.drawn row.id
  origins : ∀ row ∈ after.origins, (∃ old ∈ before.origins, SameOrigin old row) ∨
    DrawnUuid before.drawn after.drawn row.originJti
  refreshTokens : ∀ row ∈ after.refreshTokens,
    (∃ old ∈ before.refreshTokens, SameRefresh old row) ∨
      DrawnToken before.drawn after.drawn row.token ∧
        DrawnUuid before.drawn after.drawn row.originJti
  challenges : ∀ row ∈ after.challenges, row ∈ before.challenges ∨
    DrawnToken before.drawn after.drawn row.session

theorem SameCode.refl (row : AuthCodeRow) : SameCode row row :=
  ⟨rfl, rfl, rfl, rfl, id⟩

theorem SameOrigin.refl (row : OriginRow) : SameOrigin row row :=
  ⟨rfl, rfl, rfl, id⟩

theorem SameRefresh.refl (row : RefreshRow) : SameRefresh row row :=
  ⟨rfl, rfl, rfl, rfl, id⟩

theorem SameCode.trans {first second third : AuthCodeRow} (one : SameCode first second)
    (two : SameCode second third) : SameCode first third :=
  ⟨one.code.trans two.code, one.poolId.trans two.poolId, one.issued.trans two.issued,
    one.expiresAt.trans two.expiresAt, two.used ∘ one.used⟩

theorem SameOrigin.trans {first second third : OriginRow} (one : SameOrigin first second)
    (two : SameOrigin second third) : SameOrigin first third :=
  ⟨one.originJti.trans two.originJti, one.poolId.trans two.poolId,
    one.username.trans two.username, two.revoked ∘ one.revoked⟩

theorem SameRefresh.trans {first second third : RefreshRow} (one : SameRefresh first second)
    (two : SameRefresh second third) : SameRefresh first third :=
  ⟨one.token.trans two.token, one.poolId.trans two.poolId, one.username.trans two.username,
    one.originJti.trans two.originJti, two.revoked ∘ one.revoked⟩

theorem DrawnUuid.mono {low high low' high' : Nat} {key : String} (drawn : DrawnUuid low high key)
    (lower : low' ≤ low) (upper : high ≤ high') : DrawnUuid low' high' key := by
  obtain ⟨draw, least, most, same⟩ := drawn
  exact ⟨draw, lower.trans least, Nat.lt_of_lt_of_le most upper, same⟩

theorem DrawnToken.mono {low high low' high' : Nat} {key : String}
    (drawn : DrawnToken low high key) (lower : low' ≤ low) (upper : high ≤ high') :
    DrawnToken low' high' key := by
  obtain ⟨draw, least, most, same⟩ := drawn
  exact ⟨draw, lower.trans least, Nat.lt_of_lt_of_le most upper, same⟩

/-- Tables that only lose rows, and a count that does not decrease. -/
theorem Grows.of_subset {before after : Store} (drawn : before.drawn ≤ after.drawn)
    (authCodes : after.authCodes ⊆ before.authCodes) (sessions : after.sessions ⊆ before.sessions)
    (origins : after.origins ⊆ before.origins)
    (refreshTokens : after.refreshTokens ⊆ before.refreshTokens)
    (challenges : after.challenges ⊆ before.challenges) : Grows before after where
  drawn := drawn
  authCodes row member := Or.inl ⟨row, authCodes member, SameCode.refl row⟩
  sessions _ member := Or.inl (sessions member)
  origins row member := Or.inl ⟨row, origins member, SameOrigin.refl row⟩
  refreshTokens row member := Or.inl ⟨row, refreshTokens member, SameRefresh.refl row⟩
  challenges _ member := Or.inl (challenges member)

theorem Grows.refl (store : Store) : Grows store store :=
  Grows.of_subset le_rfl (List.Subset.refl _) (List.Subset.refl _) (List.Subset.refl _)
    (List.Subset.refl _) (List.Subset.refl _)

theorem Grows.trans {first second third : Store} (one : Grows first second)
    (two : Grows second third) : Grows first third := by
  refine ⟨one.drawn.trans two.drawn, fun row member => ?_, fun row member => ?_,
    fun row member => ?_, fun row member => ?_, fun row member => ?_⟩
  · rcases two.authCodes row member with ⟨middle, memberMiddle, same⟩ | fresh
    · rcases one.authCodes middle memberMiddle with ⟨old, memberOld, sameOld⟩ | fresh
      · exact Or.inl ⟨old, memberOld, sameOld.trans same⟩
      · exact Or.inr (same.code ▸ fresh.mono le_rfl two.drawn)
    · exact Or.inr (fresh.mono one.drawn le_rfl)
  · rcases two.sessions row member with middle | fresh
    · rcases one.sessions row middle with old | fresh
      · exact Or.inl old
      · exact Or.inr (fresh.mono le_rfl two.drawn)
    · exact Or.inr (fresh.mono one.drawn le_rfl)
  · rcases two.origins row member with ⟨middle, memberMiddle, same⟩ | fresh
    · rcases one.origins middle memberMiddle with ⟨old, memberOld, sameOld⟩ | fresh
      · exact Or.inl ⟨old, memberOld, sameOld.trans same⟩
      · exact Or.inr (same.originJti ▸ fresh.mono le_rfl two.drawn)
    · exact Or.inr (fresh.mono one.drawn le_rfl)
  · rcases two.refreshTokens row member with ⟨middle, memberMiddle, same⟩ | fresh
    · rcases one.refreshTokens middle memberMiddle with ⟨old, memberOld, sameOld⟩ | fresh
      · exact Or.inl ⟨old, memberOld, sameOld.trans same⟩
      · exact Or.inr ⟨same.token ▸ fresh.1.mono le_rfl two.drawn,
          same.originJti ▸ fresh.2.mono le_rfl two.drawn⟩
    · exact Or.inr ⟨fresh.1.mono one.drawn le_rfl, fresh.2.mono one.drawn le_rfl⟩
  · rcases two.challenges row member with middle | fresh
    · rcases one.challenges row middle with old | fresh
      · exact Or.inl old
      · exact Or.inr (fresh.mono le_rfl two.drawn)
    · exact Or.inr (fresh.mono one.drawn le_rfl)

/-! ### The functions of the service -/

/-- A function that touches other tables, and draws. -/
theorem Grows.of_same {before after : Store} (drawn : before.drawn ≤ after.drawn)
    (authCodes : after.authCodes = before.authCodes) (sessions : after.sessions = before.sessions)
    (origins : after.origins = before.origins)
    (refreshTokens : after.refreshTokens = before.refreshTokens)
    (challenges : after.challenges = before.challenges) : Grows before after :=
  Grows.of_subset drawn (by rw [authCodes]; exact List.Subset.refl _)
    (by rw [sessions]; exact List.Subset.refl _) (by rw [origins]; exact List.Subset.refl _)
    (by rw [refreshTokens]; exact List.Subset.refl _)
    (by rw [challenges]; exact List.Subset.refl _)

theorem grows_saveUser (store : Store) (user : User) : Grows store (saveUser store user) :=
  Grows.of_same le_rfl rfl rfl rfl rfl rfl

theorem grows_setPassword {store after : Store} {pool : Pool} {user changed : User}
    {password : String} {permanent : Bool}
    (done : setPassword store pool user password permanent = .ok (changed, after)) :
    Grows store after := by
  obtain ⟨_, _, rest⟩ := bind_ok done
  cases rest
  exact Grows.of_same (Nat.le_succ _) rfl rfl rfl rfl rfl

theorem grows_updateAttributes {store after : Store} {pool : Pool} {user changed : User}
    {attributes : List (String × String)}
    (done : updateAttributes store pool user attributes = .ok (changed, after)) :
    Grows store after := by
  obtain ⟨_, _, rest⟩ := bind_ok done
  cases rest
  exact grows_saveUser _ _

theorem createUser_ok {store after : Store} {pool : Pool} {req : NewUser} {user : User} {now : Int}
    (done : createUser store pool req now = .ok (user, after)) :
    ∃ username attributes,
      newIdentity pool req.login (External.uuid store.drawn) (givenAttributes req.attributes) =
        .ok (username, attributes) ∧
      (findUser store pool req.login = none ∧ userByUsername store pool.id username = none) ∧
      (pool.emailIsUsername = true → ∀ email, attributes["email"]? = some email →
        emailTaken store pool.id email none = false) ∧
      (user.poolId = pool.id ∧ user.username = username ∧ user.sub = External.uuid store.drawn ∧
        user.attributes = attributes) ∧
      after = { store with users := store.users ++ [user], drawn := store.drawn + 2 } := by
  obtain ⟨⟨username, attributes⟩, identity, rest⟩ := bind_ok done
  obtain ⟨_, absent, rest⟩ := bind_ok rest
  obtain ⟨_, free, rest⟩ := bind_ok rest
  rw [rejectIf_ok] at absent free
  refine ⟨username, attributes, identity, ?_, ?_, ?_⟩
  · simpa only [not_or, Bool.not_eq_true, Option.isSome_eq_false_iff, Option.isNone_iff_eq_none]
      using absent
  · intro isUsername email given
    by_contra taken
    exact free ⟨isUsername, email, given, by simpa using taken⟩
  · cases password : req.password with
    | none =>
      rw [password] at rest
      cases rest
      exact ⟨⟨rfl, rfl, rfl, rfl⟩, rfl⟩
    | some text =>
      rw [password] at rest
      cases rest
      exact ⟨⟨rfl, rfl, rfl, rfl⟩, rfl⟩

theorem grows_createUser {store after : Store} {pool : Pool} {req : NewUser} {user : User}
    {now : Int} (done : createUser store pool req now = .ok (user, after)) : Grows store after := by
  obtain ⟨_, _, _, _, _, _, rfl⟩ := createUser_ok done
  exact Grows.of_same (Nat.le_add_right _ _) rfl rfl rfl rfl rfl

theorem grows_setCode (store : Store) (user : User) (kind : String) (now : Int) :
    Grows store (setCode store user kind now).2 :=
  Grows.of_same (Nat.le_succ _) rfl rfl rfl rfl rfl

theorem checkCode_ok {store after : Store} {user : User} {kind code : String} {now : Int}
    (done : checkCode store user kind code now = .ok after) :
    (∃ row ∈ store.codes, (row.poolId = user.poolId ∧ row.username = user.username ∧
        row.kind = kind) ∧ row.code = Text.trim code ∧ now ≤ row.expiresAt) ∧
      after = { store with codes := store.codes.filter fun row =>
        !(row.poolId == user.poolId && row.username == user.username && row.kind == kind) } := by
  unfold checkCode at done
  split at done
  · cases done
  · rename_i row found
    split at done
    · cases done
    · rename_i same
      split at done
      · cases done
      · rename_i alive
        cases done
        have here := List.find?_some found
        simp only [Bool.and_eq_true, beq_iff_eq] at here
        exact ⟨⟨row, List.mem_of_find?_eq_some found, ⟨here.1.1, here.1.2, here.2⟩,
          not_not.mp same, not_lt.mp alive⟩, rfl⟩

theorem grows_checkCode {store after : Store} {user : User} {kind code : String} {now : Int}
    (done : checkCode store user kind code now = .ok after) : Grows store after := by
  obtain ⟨_, rfl⟩ := checkCode_ok done
  exact Grows.of_same le_rfl rfl rfl rfl rfl rfl

theorem grows_createChallenge (store : Store) (client : Client) (user : User) (challenge : String)
    (now : Int) : Grows store (createChallenge store client user challenge now).2 where
  drawn := Nat.le_succ _
  authCodes row member := Or.inl ⟨row, member, SameCode.refl row⟩
  sessions row member := Or.inl member
  origins row member := Or.inl ⟨row, member, SameOrigin.refl row⟩
  refreshTokens row member := Or.inl ⟨row, member, SameRefresh.refl row⟩
  challenges row member := by
    rcases List.mem_append.mp member with old | new
    · exact Or.inl old
    · rw [List.mem_singleton.mp new]
      exact Or.inr ⟨store.drawn, le_rfl, Nat.lt_succ_self _, rfl⟩

theorem takeChallenge_ok {store after : Store} {client : Client} {session challenge : String}
    {user : User} {now : Int}
    (done : takeChallenge store client session challenge now = .ok (user, after)) :
    ∃ row ∈ store.challenges, row.session = session ∧ row.clientId = client.clientId ∧
      now ≤ row.expiresAt ∧ row.challenge = challenge ∧
      userByUsername store client.poolId row.username = some user ∧
      after = { store with
        challenges := store.challenges.filter fun row => row.session != session } := by
  obtain ⟨row, found, rest⟩ := bind_ok done
  obtain ⟨_, valid, rest⟩ := bind_ok rest
  obtain ⟨_, named, rest⟩ := bind_ok rest
  obtain ⟨holder, known, rest⟩ := bind_ok rest
  cases rest
  rw [okOr_ok] at found known
  rw [rejectIf_ok] at valid named
  rw [not_or, not_not, not_lt] at valid
  have here := List.find?_some found
  exact ⟨row, List.mem_of_find?_eq_some found, by simpa using here, valid.1, valid.2,
    not_not.mp named, known, rfl⟩

theorem grows_takeChallenge {store after : Store} {client : Client} {session challenge : String}
    {user : User} {now : Int}
    (done : takeChallenge store client session challenge now = .ok (user, after)) :
    Grows store after := by
  obtain ⟨_, _, _, _, _, _, _, rfl⟩ := takeChallenge_ok done
  exact Grows.of_subset le_rfl (List.Subset.refl _) (List.Subset.refl _) (List.Subset.refl _)
    (List.Subset.refl _) (List.filter_subset_self _)

theorem grows_draw (store : Store) (count : Nat) :
    Grows store { store with drawn := store.drawn + count } :=
  Grows.of_same (Nat.le_add_right _ _) rfl rfl rfl rfl rfl

theorem grows_originOf (store : Store) (pool : Pool) (client : Client) (user : User)
    (given : Option String) : Grows store (originOf store pool client user given).2 := by
  cases given with
  | some origin => exact Grows.refl store
  | none =>
    refine ⟨Nat.le_succ _, fun row member => Or.inl ⟨row, member, SameCode.refl row⟩,
      fun row member => Or.inl member, fun row member => ?_,
      fun row member => Or.inl ⟨row, member, SameRefresh.refl row⟩, fun row member => Or.inl member⟩
    rcases List.mem_append.mp member with old | new
    · exact Or.inl ⟨row, old, SameOrigin.refl row⟩
    · rw [List.mem_singleton.mp new]
      exact Or.inr ⟨store.drawn, le_rfl, Nat.lt_succ_self _, rfl⟩

/-- Tokens under a given origin are issued without a refresh token. -/
theorem grows_issueTokens (store : Store) (ctx : Ctx) (pool : Pool) (client : Client) (user : User)
    (opts : IssueOpts) (now : Int) (root : opts.originJti = none ∨ opts.refresh = false) :
    Grows store (issueTokens store ctx pool client user opts now).2 := by
  have rooted := (grows_originOf store pool client user opts.originJti).trans (grows_draw _ 3)
  show Grows store (refreshTokenOf _ ctx pool client user opts _ now).2
  unfold refreshTokenOf
  by_cases wanted : opts.refresh = true
  · have rootless : opts.originJti = none := root.resolve_right (by simp [wanted])
    rw [rootless] at rooted ⊢
    rw [if_pos wanted]
    refine ⟨rooted.drawn.trans (Nat.le_succ _), fun row member => Or.inl ⟨row, member, SameCode.refl row⟩,
      fun row member => Or.inl member, fun row member => ?_, fun row member => ?_,
      fun row member => Or.inl member⟩
    · rcases rooted.origins row member with old | fresh
      · exact Or.inl old
      · exact Or.inr (fresh.mono le_rfl (Nat.le_succ _))
    · rcases List.mem_append.mp member with old | new
      · exact Or.inl ⟨row, old, SameRefresh.refl row⟩
      · rw [List.mem_singleton.mp new]
        refine Or.inr ⟨⟨store.drawn + 4, ?_, Nat.lt_succ_self _, rfl⟩,
          ⟨store.drawn, le_rfl, ?_, rfl⟩⟩
        · exact Nat.le_add_right _ _
        · show store.drawn < store.drawn + 1 + 3 + 1
          omega
  · rw [if_neg wanted]
    exact rooted

theorem grows_signIn (store : Store) (ctx : Ctx) (pool : Pool) (client : Client)
    (result : AuthOutcome) (now : Int) :
    Grows store (signIn store ctx pool client result now).2 := by
  cases result with
  | ok user => exact grows_issueTokens store ctx pool client user _ now (Or.inl rfl)
  | newPasswordRequired user => exact grows_createChallenge store client user _ now

theorem grows_refresh {store after : Store} {ctx : Ctx} {client : Client} {token : String}
    {tokens : TokenSet} {now : Int} (done : refresh store ctx client token now = .ok (tokens, after)) :
    Grows store after := by
  obtain ⟨row, _, rest⟩ := bind_ok done
  obtain ⟨_, _, rest⟩ := bind_ok rest
  obtain ⟨_, _, rest⟩ := bind_ok rest
  obtain ⟨_, _, rest⟩ := bind_ok rest
  obtain ⟨pool, _, rest⟩ := bind_ok rest
  obtain ⟨user, _, rest⟩ := bind_ok rest
  obtain ⟨_, _, rest⟩ := bind_ok rest
  have same : (issueTokens store ctx pool client user _ now).2 = after :=
    congrArg Prod.snd (Except.ok.inj rest)
  rw [← same]
  exact grows_issueTokens store ctx pool client user _ now (Or.inr rfl)

theorem revokeRefresh_ok {store after : Store} {client : Client} {token : String} {known : Bool}
    (done : revokeRefresh store client token = .ok (known, after)) :
    (known = false ∧ after = store ∧ ∀ row ∈ store.refreshTokens, row.token ≠ token) ∨
    ∃ row ∈ store.refreshTokens, row.token = token ∧ known = true ∧ after = { store with
      refreshTokens := store.refreshTokens.map fun other =>
        if other.token = token then { other with revoked := true } else other
      origins := store.origins.map fun origin =>
        if origin.originJti = row.originJti then { origin with revoked := true } else origin } := by
  unfold revokeRefresh at done
  split at done
  · rename_i missing
    cases done
    refine Or.inl ⟨rfl, rfl, fun row member same => ?_⟩
    exact List.find?_eq_none.mp missing row member (by simpa using same)
  · rename_i row found
    obtain ⟨_, _, rest⟩ := bind_ok done
    cases rest
    have here := List.find?_some found
    exact Or.inr ⟨row, List.mem_of_find?_eq_some found, by simpa using here, rfl, rfl⟩

/-- Revoking some origins and refresh tokens. -/
theorem Grows.of_revoked {before after : Store} (drawn : before.drawn ≤ after.drawn)
    (authCodes : after.authCodes = before.authCodes) (sessions : after.sessions ⊆ before.sessions)
    (origins : ∀ row ∈ after.origins, ∃ old ∈ before.origins, SameOrigin old row)
    (refreshTokens : ∀ row ∈ after.refreshTokens, ∃ old ∈ before.refreshTokens, SameRefresh old row)
    (challenges : after.challenges = before.challenges) : Grows before after where
  drawn := drawn
  authCodes row member := Or.inl ⟨row, authCodes ▸ member, SameCode.refl row⟩
  sessions _ member := Or.inl (sessions member)
  origins row member := Or.inl (origins row member)
  refreshTokens row member := Or.inl (refreshTokens row member)
  challenges _ member := Or.inl (challenges ▸ member)

/-- Marking the rows that satisfy a condition as revoked. -/
theorem revoked_origins {origins : List OriginRow} {condition : OriginRow → Prop}
    [DecidablePred condition] : ∀ row ∈ origins.map (fun row =>
      if condition row then { row with revoked := true } else row),
      ∃ old ∈ origins, SameOrigin old row := by
  intro row member
  obtain ⟨old, memberOld, same⟩ := List.mem_map.mp member
  refine ⟨old, memberOld, ?_⟩
  rw [← same]
  split
  · exact ⟨rfl, rfl, rfl, fun _ => rfl⟩
  · exact SameOrigin.refl old

theorem revoked_refresh {tokens : List RefreshRow} {condition : RefreshRow → Prop}
    [DecidablePred condition] : ∀ row ∈ tokens.map (fun row =>
      if condition row then { row with revoked := true } else row),
      ∃ old ∈ tokens, SameRefresh old row := by
  intro row member
  obtain ⟨old, memberOld, same⟩ := List.mem_map.mp member
  refine ⟨old, memberOld, ?_⟩
  rw [← same]
  split
  · exact ⟨rfl, rfl, rfl, rfl, fun _ => rfl⟩
  · exact SameRefresh.refl old

theorem grows_revokeRefresh {store after : Store} {client : Client} {token : String} {known : Bool}
    (done : revokeRefresh store client token = .ok (known, after)) : Grows store after := by
  rcases revokeRefresh_ok done with ⟨_, rfl, _⟩ | ⟨row, _, _, _, rfl⟩
  · exact Grows.refl _
  · exact Grows.of_revoked le_rfl rfl (List.Subset.refl _) revoked_origins revoked_refresh rfl

theorem grows_globalSignOut (store : Store) (user : User) (now : Int) :
    Grows store (globalSignOut store user now) :=
  Grows.of_revoked le_rfl rfl (List.filter_subset_self _) revoked_origins revoked_refresh rfl

theorem grows_deleteUser (store : Store) (user : User) : Grows store (deleteUser store user) :=
  Grows.of_subset le_rfl (List.filter_subset_self _) (List.filter_subset_self _) (List.filter_subset_self _)
    (List.filter_subset_self _) (List.filter_subset_self _)

theorem grows_createSession (store : Store) (user : User) (authTime now : Int) :
    Grows store (createSession store user authTime now).2 where
  drawn := Nat.le_succ _
  authCodes row member := Or.inl ⟨row, member, SameCode.refl row⟩
  sessions row member := by
    rcases List.mem_append.mp member with old | new
    · exact Or.inl old
    · rw [List.mem_singleton.mp new]
      exact Or.inr ⟨store.drawn, le_rfl, Nat.lt_succ_self _, rfl⟩
  origins row member := Or.inl ⟨row, member, SameOrigin.refl row⟩
  refreshTokens row member := Or.inl ⟨row, member, SameRefresh.refl row⟩
  challenges row member := Or.inl member

theorem grows_createCode (store : Store) (poolId : String) (code : AuthCode) (now : Int) :
    Grows store (createCode store poolId code now).2 where
  drawn := Nat.le_succ _
  authCodes row member := by
    rcases List.mem_append.mp member with old | new
    · exact Or.inl ⟨row, old, SameCode.refl row⟩
    · rw [List.mem_singleton.mp new]
      exact Or.inr ⟨store.drawn, le_rfl, Nat.lt_succ_self _, rfl⟩
  sessions row member := Or.inl member
  origins row member := Or.inl ⟨row, member, SameOrigin.refl row⟩
  refreshTokens row member := Or.inl ⟨row, member, SameRefresh.refl row⟩
  challenges row member := Or.inl member

theorem grows_takeCode (store : Store) (code : String) (now : Int) :
    Grows store (takeCode store code now).2 := by
  have spent : Grows store { store with
      authCodes := store.authCodes.map fun other =>
        if other.code = code then { other with used := true } else other } := by
    refine ⟨le_rfl, fun row member => ?_, fun row member => Or.inl member,
      fun row member => Or.inl ⟨row, member, SameOrigin.refl row⟩,
      fun row member => Or.inl ⟨row, member, SameRefresh.refl row⟩, fun row member => Or.inl member⟩
    obtain ⟨old, memberOld, same⟩ := List.mem_map.mp member
    refine Or.inl ⟨old, memberOld, ?_⟩
    rw [← same]
    split
    · exact ⟨rfl, rfl, rfl, rfl, fun _ => rfl⟩
    · exact SameCode.refl old
  unfold takeCode
  split
  · exact Grows.refl store
  · split
    · exact spent
    · exact spent

theorem grows_deletePool {store after : Store} {id : String}
    (done : deletePool store id = .ok after) : Grows store after := by
  obtain ⟨_, _, rest⟩ := bind_ok done
  obtain ⟨_, _, rest⟩ := bind_ok rest
  cases rest
  exact Grows.of_subset le_rfl (List.filter_subset_self _) (List.filter_subset_self _)
    (List.filter_subset_self _) (List.filter_subset_self _) (List.filter_subset_self _)

theorem grows_deleteClient {store after : Store} {poolId clientId : String}
    (done : deleteClient store poolId clientId = .ok after) : Grows store after := by
  obtain ⟨_, _, rest⟩ := bind_ok done
  cases rest
  exact Grows.of_revoked le_rfl rfl (List.Subset.refl _)
    (fun row member => ⟨row, member, SameOrigin.refl row⟩) revoked_refresh rfl

/-! ### The transactions -/

theorem answerWith_ok {α : Type} {answer : α → Response} {result : CResult (α × Store)}
    {response : Response} {after : Store} (done : answerWith answer result = .ok (response, after)) :
    ∃ value, result = .ok (value, after) ∧ answer value = response := by
  cases result with
  | error error => cases done
  | ok pair =>
    cases done
    exact ⟨pair.1, rfl, rfl⟩

theorem noAnswer_ok {result : CResult Store} {response : Response} {after : Store}
    (done : noAnswer result = .ok (response, after)) :
    result = .ok after ∧ response = .done := by
  cases result with
  | error error => cases done
  | ok stored =>
    cases done
    exact ⟨rfl, rfl⟩

theorem grows_createPool {store after : Store} {name : String} {data : Json} {pool : Pool}
    (done : createPool store name data = .ok (pool, after)) : Grows store after := by
  obtain ⟨_, _, rest⟩ := bind_ok done
  obtain ⟨_, _, rest⟩ := bind_ok rest
  obtain ⟨_, _, rest⟩ := bind_ok rest
  cases rest
  exact Grows.of_same (Nat.le_succ _) rfl rfl rfl rfl rfl

theorem grows_updateUserPool {store after : Store} {poolId : String}
    {updates : List (String × Json)} (done : updateUserPool store poolId updates = .ok after) :
    Grows store after := by
  obtain ⟨_, _, rest⟩ := bind_ok done
  cases rest
  exact Grows.of_same le_rfl rfl rfl rfl rfl rfl

theorem grows_createClient {store after : Store} {poolId name : String} {generateSecret : Bool}
    {data : Json} {client : Client}
    (done : createClient store poolId name generateSecret data = .ok (client, after)) :
    Grows store after := by
  obtain ⟨_, _, rest⟩ := bind_ok done
  obtain ⟨_, _, rest⟩ := bind_ok rest
  obtain ⟨_, _, rest⟩ := bind_ok rest
  cases rest
  exact Grows.of_same (Nat.le_add_right _ _) rfl rfl rfl rfl rfl

theorem grows_updateUserPoolClient {store after : Store} {poolId clientId : String}
    {name : Option String} {data : Json} {client : Client}
    (done : updateUserPoolClient store poolId clientId name data = .ok (client, after)) :
    Grows store after := by
  obtain ⟨_, _, rest⟩ := bind_ok done
  cases rest
  exact Grows.of_same le_rfl rfl rfl rfl rfl rfl

theorem grows_adminCreateUser {store after : Store} {poolId login : String}
    {attributes : List (String × String)} {temporaryPassword messageAction : Option String}
    {emailMedium : Bool} {now : Int} {user : User}
    (done : adminCreateUser store poolId login attributes temporaryPassword messageAction emailMedium
      now = .ok (user, after)) : Grows store after := by
  obtain ⟨_, _, rest⟩ := bind_ok done
  obtain ⟨pool, _, rest⟩ := bind_ok rest
  obtain ⟨password, _, rest⟩ := bind_ok rest
  obtain ⟨⟨made, stored⟩, written, rest⟩ := bind_ok rest
  obtain ⟨_, _, rest⟩ := bind_ok rest
  cases rest
  refine (grows_draw store 1).trans ?_
  unfold invitedUser at written
  split at written
  · obtain ⟨found, _, rest⟩ := bind_ok written
    obtain ⟨_, _, rest⟩ := bind_ok rest
    exact grows_setPassword rest
  · exact grows_createUser written

theorem grows_adminSetEnabled {store after : Store} {poolId login : String} {enable : Bool}
    (done : adminSetEnabled store poolId login enable = .ok after) : Grows store after := by
  obtain ⟨_, _, rest⟩ := bind_ok done
  cases rest
  refine Grows.trans ?_ (grows_saveUser _ _)
  split
  · exact Grows.refl store
  · exact Grows.of_subset le_rfl (List.Subset.refl _) (List.filter_subset_self _)
      (List.Subset.refl _) (List.Subset.refl _) (List.Subset.refl _)

theorem grows_confirmUser {store after : Store} {pool : Pool} {user : User}
    (done : confirmUser store pool user = .ok after) : Grows store after := by
  obtain ⟨_, _, rest⟩ := bind_ok done
  cases rest
  exact grows_saveUser _ _

theorem grows_sendCode {store after : Store} {clientId login kind : String} {now : Int}
    {destination : Option String}
    (done : sendCode store clientId login kind now = .ok (destination, after)) :
    Grows store after := by
  obtain ⟨client, _, rest⟩ := bind_ok done
  obtain ⟨pool, _, rest⟩ := bind_ok rest
  split at rest
  · split at rest
    · cases rest
      exact Grows.refl _
    · cases rest
  · obtain ⟨_, _, rest⟩ := bind_ok rest
    obtain ⟨_, _, rest⟩ := bind_ok rest
    cases rest
    exact grows_setCode _ _ _ _

theorem grows_updateGiven {store after : Store} {pool : Pool} {user changed : User}
    {attributes : List (String × String)}
    (done : updateGiven store pool user attributes = .ok (changed, after)) : Grows store after := by
  unfold updateGiven at done
  split at done
  · cases done
    exact Grows.refl _
  · exact grows_updateAttributes done

theorem grows_respondToAuthChallenge {store after : Store} {ctx : Ctx} {poolId : Option String}
    {clientId session newPassword : String} {attributes : List (String × String)} {now : Int}
    {tokens : TokenSet}
    (done : respondToAuthChallenge store ctx poolId clientId session newPassword attributes now =
      .ok (tokens, after)) : Grows store after := by
  obtain ⟨client, _, rest⟩ := bind_ok done
  obtain ⟨pool, _, rest⟩ := bind_ok rest
  obtain ⟨⟨user, taken⟩, took, rest⟩ := bind_ok rest
  obtain ⟨_, _, rest⟩ := bind_ok rest
  obtain ⟨⟨changed, stored⟩, set, rest⟩ := bind_ok rest
  obtain ⟨⟨updated, written⟩, wrote, rest⟩ := bind_ok rest
  have same : (issueApiTokens written ctx pool client updated now).2 = after :=
    congrArg Prod.snd (Except.ok.inj rest)
  rw [← same]
  exact (((grows_takeChallenge took).trans (grows_setPassword set)).trans
    (grows_updateGiven wrote)).trans (grows_issueTokens _ _ _ _ _ _ _ (Or.inl rfl))

theorem grows_exchange {store after : Store} {ctx : Ctx} {client : Client}
    {code redirectUri : String} {verifier : Option String} {now : Int}
    {result : Except String TokenSet}
    (done : exchange store ctx client code redirectUri verifier now = .ok (result, after)) :
    Grows store after := by
  have took := grows_takeCode store code now
  unfold exchange at done
  split at done
  · rename_i spent taken
    cases done
    rwa [taken] at took
  · rename_i issued spent taken
    rw [taken] at took
    split at done
    · cases done
      exact took
    · split at done
      · cases done
        exact took
      · obtain ⟨pool, _, rest⟩ := bind_ok done
        split at rest
        · cases rest
          exact took
        · split at rest
          · cases rest
            exact took
          · rename_i user _ _
            have same : (issueTokens spent ctx pool client user _ now).2 = after :=
              congrArg Prod.snd (Except.ok.inj rest)
            rw [← same]
            exact took.trans (grows_issueTokens _ _ _ _ _ _ _ (Or.inl rfl))

theorem grows_adminSetUserPassword {store after : Store} {poolId login password : String}
    {permanent : Bool} (done : adminSetUserPassword store poolId login password permanent = .ok after) :
    Grows store after := by
  obtain ⟨_, _, rest⟩ := bind_ok done
  obtain ⟨_, set, rest⟩ := bind_ok rest
  cases rest
  exact grows_setPassword set

theorem grows_adminUpdateUserAttributes {store after : Store} {poolId login : String}
    {attributes : List (String × String)}
    (done : adminUpdateUserAttributes store poolId login attributes = .ok after) :
    Grows store after := by
  obtain ⟨_, _, rest⟩ := bind_ok done
  obtain ⟨_, updated, rest⟩ := bind_ok rest
  cases rest
  exact grows_updateAttributes updated

theorem grows_adminDeleteUserAttributes {store after : Store} {poolId login : String}
    {names : List String} (done : adminDeleteUserAttributes store poolId login names = .ok after) :
    Grows store after := by
  obtain ⟨_, _, rest⟩ := bind_ok done
  obtain ⟨_, _, rest⟩ := bind_ok rest
  cases rest
  exact grows_saveUser _ _

theorem grows_adminResetUserPassword {store after : Store} {poolId login : String} {now : Int}
    (done : adminResetUserPassword store poolId login now = .ok after) : Grows store after := by
  obtain ⟨_, _, rest⟩ := bind_ok done
  obtain ⟨_, _, rest⟩ := bind_ok rest
  cases rest
  exact (grows_saveUser _ _).trans (grows_setCode _ _ _ _)

theorem grows_changePassword {store after : Store} {ctx : Ctx} {token previous proposed : String}
    {now : Int} (done : changePassword store ctx token previous proposed now = .ok after) :
    Grows store after := by
  obtain ⟨_, _, rest⟩ := bind_ok done
  obtain ⟨_, _, rest⟩ := bind_ok rest
  obtain ⟨_, _, rest⟩ := bind_ok rest
  obtain ⟨_, set, rest⟩ := bind_ok rest
  cases rest
  exact grows_setPassword set

theorem grows_initiateAuth {store after : Store} {ctx : Ctx} {poolId : Option String}
    {clientId login password : String} {now : Int} {response : Response}
    (done : initiateAuth store ctx poolId clientId login password now = .ok (response, after)) :
    Grows store after := by
  obtain ⟨_, _, rest⟩ := bind_ok done
  obtain ⟨_, _, rest⟩ := bind_ok rest
  obtain ⟨_, _, rest⟩ := bind_ok rest
  obtain ⟨outcome, _, rest⟩ := bind_ok rest
  have same := Prod.mk.inj (Except.ok.inj rest)
  rw [← same.2]
  exact grows_signIn _ _ _ _ _ _

theorem grows_login {store after : Store} {pool : Pool} {client : Client} {name password : String}
    {now : Int} {response : Response}
    (done : login store pool client name password now = .ok (response, after)) :
    Grows store after := by
  obtain ⟨outcome, _, rest⟩ := bind_ok done
  cases outcome with
  | ok user =>
    cases rest
    exact Grows.refl _
  | newPasswordRequired user =>
    cases rest
    exact grows_createChallenge _ _ _ _ _

theorem grows_loginNewPassword {store after : Store} {pool : Pool} {client : Client}
    {session newPassword : String} {now : Int} {user : User}
    (done : loginNewPassword store pool client session newPassword now = .ok (user, after)) :
    Grows store after := by
  obtain ⟨_, took, rest⟩ := bind_ok done
  obtain ⟨_, _, rest⟩ := bind_ok rest
  exact (grows_takeChallenge took).trans (grows_setPassword rest)

theorem grows_signUp {store after : Store} {clientId login password : String}
    {attributes : List (String × String)} {now : Int} {user : User}
    (done : signUp store clientId login password attributes now = .ok (user, after)) :
    Grows store after := by
  obtain ⟨_, _, rest⟩ := bind_ok done
  obtain ⟨_, _, rest⟩ := bind_ok rest
  obtain ⟨_, _, rest⟩ := bind_ok rest
  obtain ⟨_, _, rest⟩ := bind_ok rest
  obtain ⟨_, created, rest⟩ := bind_ok rest
  cases rest
  exact (grows_createUser created).trans (grows_setCode _ _ _ _)

theorem grows_confirmSignUp {store after : Store} {clientId login code : String} {now : Int}
    (done : confirmSignUp store clientId login code now = .ok after) : Grows store after := by
  obtain ⟨_, _, rest⟩ := bind_ok done
  obtain ⟨_, _, rest⟩ := bind_ok rest
  obtain ⟨_, checked, rest⟩ := bind_ok rest
  exact (grows_checkCode checked).trans (grows_confirmUser rest)

theorem grows_confirmForgotPassword {store after : Store} {clientId login code password : String}
    {now : Int} (done : confirmForgotPassword store clientId login code password now = .ok after) :
    Grows store after := by
  obtain ⟨_, _, rest⟩ := bind_ok done
  obtain ⟨_, checked, rest⟩ := bind_ok rest
  obtain ⟨_, set, rest⟩ := bind_ok rest
  cases rest
  exact ((grows_checkCode checked).trans (grows_setPassword set)).trans (grows_saveUser _ _)

/-- **Every transaction grows.** -/
theorem transact_grows {ctx : Ctx} {store after : Store} {input : Input} {response : Response}
    (done : transact ctx store input = .ok (response, after)) : Grows store after := by
  unfold transact at done
  cases tx : input.tx <;> simp only [tx] at done
  case createUserPool =>
    obtain ⟨_, made, _⟩ := answerWith_ok done
    exact grows_createPool made
  case updateUserPool => exact grows_updateUserPool (noAnswer_ok done).1
  case deleteUserPool => exact grows_deletePool (noAnswer_ok done).1
  case createUserPoolClient =>
    obtain ⟨_, made, _⟩ := answerWith_ok done
    exact grows_createClient made
  case updateUserPoolClient =>
    obtain ⟨_, made, _⟩ := answerWith_ok done
    exact grows_updateUserPoolClient made
  case deleteUserPoolClient => exact grows_deleteClient (noAnswer_ok done).1
  case adminCreateUser =>
    obtain ⟨_, made, _⟩ := answerWith_ok done
    exact grows_adminCreateUser made
  case adminSetEnabled => exact grows_adminSetEnabled (noAnswer_ok done).1
  case adminDeleteUser =>
    obtain ⟨_, _, rest⟩ := bind_ok (noAnswer_ok done).1
    cases rest
    exact grows_deleteUser _ _
  case adminSetUserPassword => exact grows_adminSetUserPassword (noAnswer_ok done).1
  case adminUserGlobalSignOut =>
    obtain ⟨_, _, rest⟩ := bind_ok (noAnswer_ok done).1
    cases rest
    exact grows_globalSignOut _ _ _
  case adminUpdateUserAttributes => exact grows_adminUpdateUserAttributes (noAnswer_ok done).1
  case adminDeleteUserAttributes => exact grows_adminDeleteUserAttributes (noAnswer_ok done).1
  case adminConfirmSignUp =>
    obtain ⟨_, _, rest⟩ := bind_ok (noAnswer_ok done).1
    exact grows_confirmUser rest
  case adminResetUserPassword => exact grows_adminResetUserPassword (noAnswer_ok done).1
  case initiateAuth => exact grows_initiateAuth done
  case initiateRefresh =>
    obtain ⟨_, made, _⟩ := answerWith_ok done
    obtain ⟨_, _, rest⟩ := bind_ok made
    obtain ⟨_, _, rest⟩ := bind_ok rest
    exact grows_refresh rest
  case respondToAuthChallenge =>
    obtain ⟨_, made, _⟩ := answerWith_ok done
    exact grows_respondToAuthChallenge made
  case getUser token =>
    cases found : accessUser store ctx token input.now with
    | error error => rw [found] at done; cases done
    | ok user => rw [found] at done; cases done; exact Grows.refl _
  case globalSignOut =>
    obtain ⟨_, _, rest⟩ := bind_ok (noAnswer_ok done).1
    cases rest
    exact grows_globalSignOut _ _ _
  case changePassword => exact grows_changePassword (noAnswer_ok done).1
  case revokeToken =>
    obtain ⟨_, made, _⟩ := answerWith_ok done
    obtain ⟨_, _, rest⟩ := bind_ok made
    obtain ⟨_, _, rest⟩ := bind_ok rest
    exact grows_revokeRefresh rest
  case signUp =>
    obtain ⟨_, made, _⟩ := answerWith_ok done
    exact grows_signUp made
  case confirmSignUp => exact grows_confirmSignUp (noAnswer_ok done).1
  case resendConfirmationCode =>
    obtain ⟨_, made, _⟩ := answerWith_ok done
    exact grows_sendCode made
  case forgotPassword =>
    obtain ⟨_, made, _⟩ := answerWith_ok done
    exact grows_sendCode made
  case confirmForgotPassword => exact grows_confirmForgotPassword (noAnswer_ok done).1
  case sessionUser => cases done; exact Grows.refl _
  case login => exact grows_login done
  case loginNewPassword =>
    obtain ⟨_, made, _⟩ := answerWith_ok done
    exact grows_loginNewPassword made
  case createSession => cases done; exact grows_createSession _ _ _ _
  case createCode => cases done; exact grows_createCode _ _ _ _
  case implicitTokens => cases done; exact grows_issueTokens _ _ _ _ _ _ _ (Or.inl rfl)
  case exchange =>
    obtain ⟨_, made, _⟩ := answerWith_ok done
    exact grows_exchange made
  case refresh =>
    obtain ⟨_, made, _⟩ := answerWith_ok done
    exact grows_refresh made
  case revoke =>
    obtain ⟨_, made, _⟩ := answerWith_ok done
    exact grows_revokeRefresh made
  case deleteSession =>
    cases done
    exact Grows.of_subset le_rfl (List.Subset.refl _) (List.filter_subset_self _)
      (List.Subset.refl _) (List.Subset.refl _) (List.Subset.refl _)

theorem perform_grows {ctx : Ctx} {event : CognitoEvent} (taken : event.Taken (perform ctx)) :
    Grows event.before event.after := by
  rcases taken_commit taken with ⟨_, _, same⟩ | ⟨_, _, done⟩
  · rw [same]
    exact Grows.refl _
  · exact transact_grows done

/-- **A run grows.** -/
theorem run_grows {ctx : Ctx} {start stop : Store} {history : List CognitoEvent}
    (run : Run (perform ctx) start history stop) : Grows start stop := by
  induction run with
  | start => exact Grows.refl _
  | next _ taken ih => exact ih.trans (perform_grows taken)

/-! ### What was drawn earlier -/

theorem DrawnUuid.not_earlier (laws : UuidLaws ‹External›) {low high draw : Nat}
    (early : draw < low) : ¬ DrawnUuid low high (External.uuid draw) := by
  rintro ⟨other, least, _, same⟩
  have equal := laws.fresh same
  omega

theorem DrawnToken.not_earlier (laws : CryptoLaws ‹Crypto›) {low high draw : Nat}
    (early : draw < low) : ¬ DrawnToken low high (Crypto.randomToken draw) := by
  rintro ⟨other, least, _, same⟩
  have equal := laws.fresh same
  omega

section Stable

variable {before after : Store} {draw : Nat}

/-- What holds of the code under a key drawn earlier, and of all that it can become, goes on to
hold; so for the other tables. -/
theorem Grows.code_stable (grows : Grows before after) (laws : UuidLaws ‹External›)
    (early : draw < before.drawn) (Holds : AuthCodeRow → Prop)
    (closed : ∀ old row, SameCode old row → Holds old → Holds row)
    (holds : ∀ row ∈ before.authCodes, row.code = External.uuid draw → Holds row) :
    ∀ row ∈ after.authCodes, row.code = External.uuid draw → Holds row := by
  intro row member same
  rcases grows.authCodes row member with ⟨old, memberOld, sameOld⟩ | fresh
  · exact closed old row sameOld (holds old memberOld (sameOld.code.trans same))
  · exact absurd (same ▸ fresh) (DrawnUuid.not_earlier laws early)

theorem Grows.origin_stable (grows : Grows before after) (laws : UuidLaws ‹External›)
    (early : draw < before.drawn) (Holds : OriginRow → Prop)
    (closed : ∀ old row, SameOrigin old row → Holds old → Holds row)
    (holds : ∀ row ∈ before.origins, row.originJti = External.uuid draw → Holds row) :
    ∀ row ∈ after.origins, row.originJti = External.uuid draw → Holds row := by
  intro row member same
  rcases grows.origins row member with ⟨old, memberOld, sameOld⟩ | fresh
  · exact closed old row sameOld (holds old memberOld (sameOld.originJti.trans same))
  · exact absurd (same ▸ fresh) (DrawnUuid.not_earlier laws early)

theorem Grows.refresh_stable (grows : Grows before after) (laws : CryptoLaws ‹Crypto›)
    (early : draw < before.drawn) (Holds : RefreshRow → Prop)
    (closed : ∀ old row, SameRefresh old row → Holds old → Holds row)
    (holds : ∀ row ∈ before.refreshTokens, row.token = Crypto.randomToken draw → Holds row) :
    ∀ row ∈ after.refreshTokens, row.token = Crypto.randomToken draw → Holds row := by
  intro row member same
  rcases grows.refreshTokens row member with ⟨old, memberOld, sameOld⟩ | fresh
  · exact closed old row sameOld (holds old memberOld (sameOld.token.trans same))
  · exact absurd (same ▸ fresh.1) (DrawnToken.not_earlier laws early)

/-- The refresh tokens of an origin drawn earlier. -/
theorem Grows.derived_stable (grows : Grows before after) (laws : UuidLaws ‹External›)
    (early : draw < before.drawn) (Holds : RefreshRow → Prop)
    (closed : ∀ old row, SameRefresh old row → Holds old → Holds row)
    (holds : ∀ row ∈ before.refreshTokens, row.originJti = External.uuid draw → Holds row) :
    ∀ row ∈ after.refreshTokens, row.originJti = External.uuid draw → Holds row := by
  intro row member same
  rcases grows.refreshTokens row member with ⟨old, memberOld, sameOld⟩ | fresh
  · exact closed old row sameOld (holds old memberOld (sameOld.originJti.trans same))
  · exact absurd (same ▸ fresh.2) (DrawnUuid.not_earlier laws early)

theorem Grows.session_stable (grows : Grows before after) (laws : CryptoLaws ‹Crypto›)
    (early : draw < before.drawn) (Holds : SessionRow → Prop)
    (holds : ∀ row ∈ before.sessions, row.id = Crypto.randomToken draw → Holds row) :
    ∀ row ∈ after.sessions, row.id = Crypto.randomToken draw → Holds row := by
  intro row member same
  rcases grows.sessions row member with old | fresh
  · exact holds row old same
  · exact absurd (same ▸ fresh) (DrawnToken.not_earlier laws early)

theorem Grows.challenge_stable (grows : Grows before after) (laws : CryptoLaws ‹Crypto›)
    (early : draw < before.drawn) (Holds : ChallengeRow → Prop)
    (holds : ∀ row ∈ before.challenges, row.session = Crypto.randomToken draw → Holds row) :
    ∀ row ∈ after.challenges, row.session = Crypto.randomToken draw → Holds row := by
  intro row member same
  rcases grows.challenges row member with old | fresh
  · exact holds row old same
  · exact absurd (same ▸ fresh) (DrawnToken.not_earlier laws early)

end Stable

end External

end CloudTwin.Cognito
