/-
**What transactions do to pools, users and verification codes.**

A transaction is a sequence of writes. `Write` lists them, each with what the transaction knows when
it makes it (the user is stored, the pool is the one that is stored) and, where only some
transactions make it, which ones.

* `findUser_mem`, `userByUsername_mem` — a user that is found is stored.
* `transact_writes` — every transaction is a sequence of writes.
* `Writes.keeps` — what every write keeps, a transaction keeps.
-/

import CloudTwin.Cognito.Tables
import Mathlib.Logic.Relation

namespace CloudTwin.Cognito

open Lib

set_option linter.unusedSectionVars false

section External

variable [External] [Crypto]

/-! ### Users that are found -/

theorem queryUsers_mem {store : Store} {poolId : String} {condition : User → Bool} {user : User} :
    user ∈ queryUsers store poolId condition ↔
      user ∈ store.users ∧ user.poolId = poolId ∧ condition user = true := by
  unfold queryUsers
  rw [List.mem_insertionSort, List.mem_filter, Bool.and_eq_true, beq_iff_eq]

theorem userByUsername_mem {store : Store} {poolId username : String} {user : User}
    (found : userByUsername store poolId username = some user) :
    user ∈ store.users ∧ user.Is poolId username := by
  obtain ⟨member, inPool, named⟩ := queryUsers_mem.mp (List.mem_of_head? found)
  exact ⟨member, inPool, by simpa using named⟩

theorem findUser_mem {store : Store} {pool : Pool} {login : String} {user : User}
    (found : findUser store pool login = some user) :
    user ∈ store.users ∧ user.poolId = pool.id := by
  obtain ⟨way, _, first⟩ := List.exists_of_findSome?_eq_some found
  obtain ⟨member, inPool, _⟩ := queryUsers_mem.mp (List.mem_of_head? first)
  exact ⟨member, inPool⟩

theorem findPool_id {store : Store} {id : String} {pool : Pool}
    (found : findPool store id = some pool) : pool.id = id := by
  simpa using List.find?_some found

theorem getPool_ok {store : Store} {id : String} {pool : Pool}
    (found : getPool store id = .ok pool) :
    findPool store pool.id = some pool ∧ pool.id = id := by
  unfold getPool at found
  rw [okOr_ok] at found
  rw [findPool_id found]
  exact ⟨found, rfl⟩

/-- What the requests know of the pool and the user they have found. -/
structure Known (store : Store) (pool : Pool) (user : User) : Prop where
  stored : findPool store pool.id = some pool
  member : user ∈ store.users
  inPool : user.poolId = pool.id

theorem getUser_known {store : Store} {pool : Pool} {login : String} {user : User}
    (known : findPool store pool.id = some pool)
    (found : Cognito.getUser store pool login = .ok user) : Known store pool user := by
  unfold Cognito.getUser at found
  rw [okOr_ok] at found
  exact ⟨known, (findUser_mem found).1, (findUser_mem found).2⟩

theorem withUser_known {store : Store} {poolId login : String} {pool : Pool} {user : User}
    (found : withUser store poolId login = .ok (pool, user)) : Known store pool user := by
  obtain ⟨known, here, rest⟩ := bind_ok found
  obtain ⟨holder, named, rest⟩ := bind_ok rest
  cases rest
  exact getUser_known (getPool_ok here).1 named

theorem withClientUser_known {store : Store} {clientId login : String} {pool : Pool} {user : User}
    (found : withClientUser store clientId login = .ok (pool, user)) : Known store pool user := by
  obtain ⟨client, _, rest⟩ := bind_ok found
  obtain ⟨known, here, rest⟩ := bind_ok rest
  obtain ⟨holder, named, rest⟩ := bind_ok rest
  cases rest
  exact getUser_known (getPool_ok here).1 named

theorem validateAccess_mem {store : Store} {ctx : Ctx} {token : String} {now : Int} {pool : Pool}
    {user : User} {claims : Claims}
    (done : validateAccess store ctx token now = .ok (pool, user, claims)) : user ∈ store.users := by
  obtain ⟨_, _, rest⟩ := bind_ok done
  obtain ⟨_, _, rest⟩ := bind_ok rest
  obtain ⟨_, _, rest⟩ := bind_ok rest
  obtain ⟨_, _, rest⟩ := bind_ok rest
  obtain ⟨_, _, rest⟩ := bind_ok rest
  obtain ⟨_, _, rest⟩ := bind_ok rest
  obtain ⟨holder, found, rest⟩ := bind_ok rest
  obtain ⟨_, _, rest⟩ := bind_ok rest
  obtain ⟨_, _, rest⟩ := bind_ok rest
  cases rest
  rw [okOr_ok] at found
  exact (userByUsername_mem found).1

theorem accessUser_mem {store : Store} {ctx : Ctx} {token : String} {now : Int} {user : User}
    (done : accessUser store ctx token now = .ok user) : user ∈ store.users := by
  obtain ⟨⟨_, holder, _⟩, valid, rest⟩ := bind_ok done
  obtain ⟨_, _, rest⟩ := bind_ok rest
  cases rest
  exact validateAccess_mem valid

/-! ### Writes -/

/-- The change leaves what `save_user` does not store. -/
structure SameUser (user changed : User) : Prop where
  poolId : changed.poolId = user.poolId
  username : changed.username = user.username
  sub : changed.sub = user.sub
  created : changed.created = user.created

theorem saveUser_mem {store : Store} {user changed : User} (member : user ∈ store.users)
    (same : SameUser user changed) : changed ∈ (saveUser store changed).users := by
  refine List.mem_map.mpr ⟨user, member, ?_⟩
  rw [if_pos ⟨same.poolId.symm, same.username.symm⟩]
  rw [← same.poolId, ← same.username, ← same.sub, ← same.created]

/-- The kind of verification code that a transaction sends. -/
def Tx.sends : Tx → Option String
  | .signUp .. => some "signup"
  | .resendConfirmationCode .. => some "signup"
  | .forgotPassword .. => some "reset"
  | .adminResetUserPassword .. => some "reset"
  | _ => none

/-- The attributes that a transaction gives to a new user. -/
def Tx.creates (tx : Tx) (attributes : List (String × String)) : Prop :=
  (∃ poolId login password action medium,
    tx = .adminCreateUser poolId login attributes password action medium) ∨
  ∃ clientId login password, tx = .signUp clientId login password attributes

/-- The attributes that a transaction gives to a user. -/
def Tx.updates (tx : Tx) (attributes : List (String × String)) : Prop :=
  (∃ poolId login, tx = .adminUpdateUserAttributes poolId login attributes) ∨
  ∃ poolId clientId session newPassword,
    tx = .respondToAuthChallenge poolId clientId session newPassword attributes

/-- A transaction that confirms a sign-up. -/
def Tx.confirms (tx : Tx) : Prop :=
  (∃ poolId login, tx = .adminConfirmSignUp poolId login) ∨
  ∃ clientId login code, tx = .confirmSignUp clientId login code

/-- A transaction that resets a password with a code. -/
def Tx.resets (tx : Tx) : Prop :=
  ∃ clientId login code password, tx = .confirmForgotPassword clientId login code password

/-- **A write.** -/
inductive Write (input : Input) (store : Store) : Store → Prop
  | other {after : Store} (users : after.users = store.users) (pools : after.pools = store.pools)
      (codes : after.codes = store.codes) (drawn : store.drawn ≤ after.drawn) :
      Write input store after
  | poolCreated {after : Store} {name : String} {data : Json} {pool : Pool}
      (done : createPool store name data = .ok (pool, after)) : Write input store after
  | poolUpdated {after : Store} {poolId : String} {updates : List (String × Json)}
      (tx : input.tx = .updateUserPool poolId updates)
      (done : updateUserPool store poolId updates = .ok after) : Write input store after
  | poolDeleted {after : Store} {id : String} (done : deletePool store id = .ok after) :
      Write input store after
  | userCreated {after : Store} {pool : Pool} {req : NewUser} {user : User}
      (known : findPool store pool.id = some pool)
      (done : createUser store pool req input.now = .ok (user, after))
      (tx : input.tx.creates req.attributes) : Write input store after
  | userDeleted (user : User) : Write input store (deleteUser store user)
  | profile {user changed : User} (member : user ∈ store.users) (same : SameUser user changed)
      (attributes : changed.attributes = user.attributes) :
      Write input store (saveUser store changed)
  | updated {after : Store} {pool : Pool} {user changed : User}
      {attributes : List (String × String)} (known : Known store pool user)
      (done : updateAttributes store pool user attributes = .ok (changed, after))
      (tx : input.tx.updates attributes) : Write input store after
  | erased {user : User} (member : user ∈ store.users) (names : List String) :
      Write input store (saveUser store { user with
        attributes := names.foldl (fun attributes name => attributes.erase name) user.attributes })
  | confirmed {user : User} (member : user ∈ store.users) (pool : Pool)
      (tx : input.tx.confirms) :
      Write input store (saveUser store
        { user with status := .confirmed, attributes := confirmedAttributes pool user })
  | reset {user : User} (member : user ∈ store.users) (tx : input.tx.resets) :
      Write input store (saveUser store { user with attributes := resetAttributes user })
  | codeSent (user : User) {kind : String} (tx : input.tx.sends = some kind) :
      Write input store (setCode store user kind input.now).2
  | codeTaken {after : Store} {user : User} {kind code : String}
      (done : checkCode store user kind code input.now = .ok after) : Write input store after

/-- **A sequence of writes.** -/
abbrev Writes (input : Input) : Store → Store → Prop :=
  Relation.ReflTransGen (Write input)

/-- **What every write keeps, a sequence of writes keeps.** -/
theorem Writes.keeps {input : Input} {Inv : Store → Prop} {before after : Store}
    (writes : Writes input before after)
    (kept : ∀ {store after : Store}, Write input store after → Inv store → Inv after)
    (holds : Inv before) : Inv after := by
  induction writes with
  | refl => exact holds
  | tail _ write ih => exact kept write ih

/-! ### The functions of the service -/

section Functions

variable {input : Input} {store after : Store}

theorem Writes.one (write : Write input store after) : Writes input store after :=
  Relation.ReflTransGen.single write

theorem Writes.of_same (users : after.users = store.users) (pools : after.pools = store.pools)
    (codes : after.codes = store.codes) (drawn : store.drawn ≤ after.drawn) :
    Writes input store after :=
  Writes.one (Write.other users pools codes drawn)

theorem writes_setPassword {pool : Pool} {user changed : User} {password : String}
    {permanent : Bool} (member : user ∈ store.users)
    (done : setPassword store pool user password permanent = .ok (changed, after)) :
    Writes input store after ∧ changed ∈ after.users ∧ SameUser user changed ∧
      changed.attributes = user.attributes ∧ after.pools = store.pools := by
  obtain ⟨_, _, rest⟩ := bind_ok done
  obtain ⟨changes, stored⟩ := Prod.mk.inj (Except.ok.inj rest)
  have same : SameUser user changed := by
    rw [← changes]
    exact ⟨rfl, rfl, rfl, rfl⟩
  have attributes : changed.attributes = user.attributes := by
    rw [← changes]
    rfl
  have saved : Writes input store (saveUser store changed) :=
    Writes.one (Write.profile member same attributes)
  rw [changes] at stored
  rw [← stored]
  exact ⟨saved.trans (Writes.of_same rfl rfl rfl (Nat.le_succ _)), saveUser_mem member same, same,
    attributes, rfl⟩

theorem issueTokens_same (ctx : Ctx) (pool : Pool) (client : Client) (user : User)
    (opts : IssueOpts) (now : Int) :
    Writes input store (issueTokens store ctx pool client user opts now).2 := by
  refine Writes.of_same ?_ ?_ ?_ ?_
  all_goals
    unfold issueTokens originOf refreshTokenOf
    cases opts.originJti <;> cases opts.refresh <;> simp <;> omega

theorem takeChallenge_same {client : Client} {session challenge : String} {user : User} {now : Int}
    (done : takeChallenge store client session challenge now = .ok (user, after)) :
    Writes input store after ∧ user ∈ after.users ∧ user.poolId = client.poolId ∧
      after.pools = store.pools := by
  obtain ⟨_, _, _, _, _, _, found, rfl⟩ := takeChallenge_ok done
  obtain ⟨member, is⟩ := userByUsername_mem found
  exact ⟨Writes.of_same rfl rfl rfl le_rfl, member, is.1, rfl⟩

/-- Answers that go with tables other than those of pools, users and verification codes. -/
theorem writes_signIn (ctx : Ctx) (pool : Pool) (client : Client) (outcome : AuthOutcome)
    (now : Int) : Writes input store (signIn store ctx pool client outcome now).2 := by
  cases outcome with
  | ok user => exact issueTokens_same ctx pool client user _ now
  | newPasswordRequired user => exact Writes.of_same rfl rfl rfl (Nat.le_succ _)

theorem writes_refresh {ctx : Ctx} {client : Client} {token : String} {tokens : TokenSet}
    {now : Int} (done : refresh store ctx client token now = .ok (tokens, after)) :
    Writes input store after := by
  obtain ⟨_, _, rest⟩ := bind_ok done
  obtain ⟨_, _, rest⟩ := bind_ok rest
  obtain ⟨_, _, rest⟩ := bind_ok rest
  obtain ⟨_, _, rest⟩ := bind_ok rest
  obtain ⟨pool, _, rest⟩ := bind_ok rest
  obtain ⟨user, _, rest⟩ := bind_ok rest
  obtain ⟨_, _, rest⟩ := bind_ok rest
  have same : (issueTokens store ctx pool client user _ now).2 = after :=
    congrArg Prod.snd (Except.ok.inj rest)
  rw [← same]
  exact issueTokens_same ctx pool client user _ now

theorem writes_revokeRefresh {client : Client} {token : String} {known : Bool}
    (done : revokeRefresh store client token = .ok (known, after)) :
    Writes input store after := by
  rcases revokeRefresh_ok done with ⟨_, rfl, _⟩ | ⟨row, _, _, _, rfl⟩
  · exact Relation.ReflTransGen.refl
  · exact Writes.of_same rfl rfl rfl le_rfl

/-- A user is saved after other tables were written. -/
theorem writes_saveUser {middle : Store} {user changed : User} (users : middle.users = store.users)
    (pools : middle.pools = store.pools) (codes : middle.codes = store.codes)
    (drawn : store.drawn ≤ middle.drawn) (member : user ∈ store.users)
    (same : SameUser user changed) (attributes : changed.attributes = user.attributes) :
    Writes input store (saveUser middle changed) := by
  rw [← users] at member
  exact Relation.ReflTransGen.head (Write.other users pools codes drawn)
    (Writes.one (Write.profile member same attributes))

theorem writes_globalSignOut {user : User} (member : user ∈ store.users) (now : Int) :
    Writes input store (globalSignOut store user now) :=
  writes_saveUser rfl rfl rfl le_rfl member ⟨rfl, rfl, rfl, rfl⟩ rfl

theorem checkCode_users {user : User} {kind code : String} {now : Int}
    (done : checkCode store user kind code now = .ok after) : after.users = store.users := by
  obtain ⟨_, rfl⟩ := checkCode_ok done
  rfl

theorem takeCode_same (code : String) (now : Int) :
    Writes input store (takeCode store code now).2 := by
  unfold takeCode
  split
  · exact Relation.ReflTransGen.refl
  · split
    · exact Writes.of_same rfl rfl rfl le_rfl
    · exact Writes.of_same rfl rfl rfl le_rfl

theorem writes_exchange {ctx : Ctx} {client : Client} {code redirectUri : String}
    {verifier : Option String} {now : Int} {result : Except String TokenSet}
    (done : exchange store ctx client code redirectUri verifier now = .ok (result, after)) :
    Writes input store after := by
  have took : Writes input store (takeCode store code now).2 := takeCode_same code now
  unfold exchange at done
  split at done
  · rename_i spent taken
    cases done
    rwa [taken] at took
  · rename_i issued spent taken
    rw [taken] at took
    split at done
    · cases done
      exact took
    · split at done
      · cases done
        exact took
      · obtain ⟨pool, _, rest⟩ := bind_ok done
        split at rest
        · cases rest
          exact took
        · split at rest
          · cases rest
            exact took
          · rename_i user _ _
            have same : (issueTokens spent ctx pool client user _ now).2 = after :=
              congrArg Prod.snd (Except.ok.inj rest)
            rw [← same]
            exact took.trans (issueTokens_same ctx pool client user _ now)

theorem writes_adminCreateUser {poolId login : String} {attributes : List (String × String)}
    {temporaryPassword messageAction : Option String} {emailMedium : Bool} {user : User}
    (tx : input.tx = .adminCreateUser poolId login attributes temporaryPassword messageAction
      emailMedium)
    (done : adminCreateUser store poolId login attributes temporaryPassword messageAction emailMedium
      input.now = .ok (user, after)) : Writes input store after := by
  obtain ⟨_, _, rest⟩ := bind_ok done
  obtain ⟨pool, known, rest⟩ := bind_ok rest
  obtain ⟨password, _, rest⟩ := bind_ok rest
  obtain ⟨⟨made, stored⟩, written, rest⟩ := bind_ok rest
  obtain ⟨_, _, rest⟩ := bind_ok rest
  cases rest
  have drawn : Writes input store { store with drawn := store.drawn + 1 } :=
    Writes.of_same rfl rfl rfl (Nat.le_succ _)
  refine drawn.trans ?_
  unfold invitedUser at written
  split at written
  · obtain ⟨found, named, rest⟩ := bind_ok written
    obtain ⟨_, _, rest⟩ := bind_ok rest
    have member : found ∈ ({ store with drawn := store.drawn + 1 } : Store).users :=
      (getUser_known (getPool_ok known).1 named).member
    exact (writes_setPassword member rest).1
  · exact Writes.one (Write.userCreated (getPool_ok known).1 written
      (Or.inl ⟨_, _, _, _, _, tx⟩))

theorem writes_sendCode {clientId login kind : String} {destination : Option String}
    (tx : input.tx.sends = some kind)
    (done : sendCode store clientId login kind input.now = .ok (destination, after)) :
    Writes input store after := by
  obtain ⟨client, _, rest⟩ := bind_ok done
  obtain ⟨pool, _, rest⟩ := bind_ok rest
  split at rest
  · split at rest
    · cases rest
      exact Relation.ReflTransGen.refl
    · cases rest
  · obtain ⟨_, _, rest⟩ := bind_ok rest
    obtain ⟨_, _, rest⟩ := bind_ok rest
    cases rest
    exact Writes.one (Write.codeSent _ tx)

theorem writes_respondToAuthChallenge {ctx : Ctx} {poolId : Option String}
    {clientId session newPassword : String} {attributes : List (String × String)}
    {tokens : TokenSet}
    (tx : input.tx = .respondToAuthChallenge poolId clientId session newPassword attributes)
    (done : respondToAuthChallenge store ctx poolId clientId session newPassword attributes
      input.now = .ok (tokens, after)) : Writes input store after := by
  obtain ⟨client, _, rest⟩ := bind_ok done
  obtain ⟨pool, known, rest⟩ := bind_ok rest
  obtain ⟨⟨user, taken⟩, took, rest⟩ := bind_ok rest
  obtain ⟨_, _, rest⟩ := bind_ok rest
  obtain ⟨⟨changed, stored⟩, set, rest⟩ := bind_ok rest
  obtain ⟨⟨updated, written⟩, wrote, rest⟩ := bind_ok rest
  have same : (issueApiTokens written ctx pool client updated input.now).2 = after :=
    congrArg Prod.snd (Except.ok.inj rest)
  rw [← same]
  obtain ⟨first, member, inPool, samePools⟩ := takeChallenge_same took
  obtain ⟨second, memberChanged, sameUser, _, samePools'⟩ :=
    writes_setPassword member set
  have knownChanged : Known stored pool changed := by
    obtain ⟨here, id⟩ := getPool_ok known
    refine ⟨?_, memberChanged, sameUser.poolId.trans (inPool.trans id.symm)⟩
    unfold findPool at here ⊢
    rwa [samePools', samePools]
  have third : Writes input stored written := by
    unfold updateGiven at wrote
    split at wrote
    · cases wrote
      exact Relation.ReflTransGen.refl
    · exact Writes.one (Write.updated knownChanged wrote (Or.inr ⟨_, _, _, _, tx⟩))
  exact ((first.trans second).trans third).trans (issueTokens_same _ _ _ _ _ _)

/-! Changes of clients, and of the profile of a user. -/

theorem writes_createClient {poolId name : String} {generateSecret : Bool} {data : Json}
    {client : Client} (done : createClient store poolId name generateSecret data = .ok (client, after)) :
    Writes input store after := by
  obtain ⟨_, _, rest⟩ := bind_ok done
  obtain ⟨_, _, rest⟩ := bind_ok rest
  obtain ⟨_, _, rest⟩ := bind_ok rest
  cases rest
  exact Writes.of_same rfl rfl rfl (Nat.le_add_right _ _)

theorem writes_updateUserPoolClient {poolId clientId : String} {name : Option String} {data : Json}
    {client : Client}
    (done : updateUserPoolClient store poolId clientId name data = .ok (client, after)) :
    Writes input store after := by
  obtain ⟨_, _, rest⟩ := bind_ok done
  cases rest
  exact Writes.of_same rfl rfl rfl le_rfl

theorem writes_deleteClient {poolId clientId : String}
    (done : deleteClient store poolId clientId = .ok after) : Writes input store after := by
  obtain ⟨_, _, rest⟩ := bind_ok done
  cases rest
  exact Writes.of_same rfl rfl rfl le_rfl

theorem writes_adminSetEnabled {poolId login : String} {enable : Bool}
    (done : adminSetEnabled store poolId login enable = .ok after) : Writes input store after := by
  obtain ⟨⟨pool, user⟩, found, rest⟩ := bind_ok done
  cases rest
  have member := (withUser_known found).member
  cases enable with
  | true => exact Writes.one (Write.profile member ⟨rfl, rfl, rfl, rfl⟩ rfl)
  | false => exact writes_saveUser rfl rfl rfl le_rfl member ⟨rfl, rfl, rfl, rfl⟩ rfl

theorem writes_adminSetUserPassword {poolId login password : String} {permanent : Bool}
    (done : adminSetUserPassword store poolId login password permanent = .ok after) :
    Writes input store after := by
  obtain ⟨⟨pool, user⟩, found, rest⟩ := bind_ok done
  obtain ⟨_, set, rest⟩ := bind_ok rest
  cases rest
  exact (writes_setPassword (withUser_known found).member set).1

theorem writes_adminUpdateUserAttributes {poolId login : String}
    {attributes : List (String × String)}
    (tx : input.tx = .adminUpdateUserAttributes poolId login attributes)
    (done : adminUpdateUserAttributes store poolId login attributes = .ok after) :
    Writes input store after := by
  obtain ⟨⟨pool, user⟩, found, rest⟩ := bind_ok done
  obtain ⟨_, updated, rest⟩ := bind_ok rest
  cases rest
  exact Writes.one (Write.updated (withUser_known found) updated (Or.inl ⟨_, _, tx⟩))

theorem writes_adminDeleteUserAttributes {poolId login : String} {names : List String}
    (done : adminDeleteUserAttributes store poolId login names = .ok after) :
    Writes input store after := by
  obtain ⟨⟨pool, user⟩, found, rest⟩ := bind_ok done
  obtain ⟨_, _, rest⟩ := bind_ok rest
  cases rest
  exact Writes.one (Write.erased (withUser_known found).member _)

theorem writes_adminConfirmSignUp {poolId login : String}
    (tx : input.tx = .adminConfirmSignUp poolId login)
    (done : adminConfirmSignUp store poolId login = .ok after) : Writes input store after := by
  obtain ⟨⟨pool, user⟩, found, rest⟩ := bind_ok done
  obtain ⟨_, _, rest⟩ := bind_ok rest
  cases rest
  exact Writes.one (Write.confirmed (withUser_known found).member pool (Or.inl ⟨_, _, tx⟩))

theorem writes_adminResetUserPassword {poolId login : String}
    (tx : input.tx = .adminResetUserPassword poolId login)
    (done : adminResetUserPassword store poolId login input.now = .ok after) :
    Writes input store after := by
  obtain ⟨⟨pool, user⟩, found, rest⟩ := bind_ok done
  obtain ⟨_, _, rest⟩ := bind_ok rest
  cases rest
  have member := (withUser_known found).member
  refine Relation.ReflTransGen.head (Write.profile member ?_ ?_)
    (Writes.one (Write.codeSent _ (by rw [tx]; rfl)))
  · split <;> exact ⟨rfl, rfl, rfl, rfl⟩
  · split <;> rfl

theorem writes_changePassword {ctx : Ctx} {token previous proposed : String} {now : Int}
    (done : changePassword store ctx token previous proposed now = .ok after) :
    Writes input store after := by
  obtain ⟨_, found, rest⟩ := bind_ok done
  obtain ⟨_, _, rest⟩ := bind_ok rest
  obtain ⟨_, _, rest⟩ := bind_ok rest
  obtain ⟨_, set, rest⟩ := bind_ok rest
  cases rest
  exact (writes_setPassword (accessUser_mem found) set).1

/-! Signing in and up. -/

theorem writes_initiateAuth {ctx : Ctx} {poolId : Option String} {clientId login password : String}
    {now : Int} {response : Response}
    (done : initiateAuth store ctx poolId clientId login password now = .ok (response, after)) :
    Writes input store after := by
  obtain ⟨_, _, rest⟩ := bind_ok done
  obtain ⟨_, _, rest⟩ := bind_ok rest
  obtain ⟨_, _, rest⟩ := bind_ok rest
  obtain ⟨outcome, _, rest⟩ := bind_ok rest
  have same := Prod.mk.inj (Except.ok.inj rest)
  rw [← same.2]
  exact writes_signIn _ _ _ _ _

theorem writes_login {pool : Pool} {client : Client} {name password : String} {now : Int}
    {response : Response}
    (done : login store pool client name password now = .ok (response, after)) :
    Writes input store after := by
  obtain ⟨outcome, _, rest⟩ := bind_ok done
  cases outcome with
  | ok user =>
    cases rest
    exact Relation.ReflTransGen.refl
  | newPasswordRequired user =>
    cases rest
    exact Writes.of_same rfl rfl rfl (Nat.le_succ _)

theorem writes_loginNewPassword {pool : Pool} {client : Client} {session newPassword : String}
    {now : Int} {user : User}
    (done : loginNewPassword store pool client session newPassword now = .ok (user, after)) :
    Writes input store after := by
  obtain ⟨_, took, rest⟩ := bind_ok done
  obtain ⟨_, _, rest⟩ := bind_ok rest
  obtain ⟨first, member, _⟩ := takeChallenge_same took
  exact first.trans (writes_setPassword member rest).1

theorem writes_signUp {clientId login password : String} {attributes : List (String × String)}
    {user : User} (tx : input.tx = .signUp clientId login password attributes)
    (done : signUp store clientId login password attributes input.now = .ok (user, after)) :
    Writes input store after := by
  obtain ⟨_, _, rest⟩ := bind_ok done
  obtain ⟨pool, known, rest⟩ := bind_ok rest
  obtain ⟨_, _, rest⟩ := bind_ok rest
  obtain ⟨_, _, rest⟩ := bind_ok rest
  obtain ⟨_, created, rest⟩ := bind_ok rest
  cases rest
  refine Relation.ReflTransGen.head (Write.userCreated (getPool_ok known).1 created
    (Or.inr ⟨_, _, _, tx⟩)) (Writes.one (Write.codeSent _ ?_))
  rw [tx]
  rfl

theorem writes_confirmSignUp {clientId login code : String}
    (tx : input.tx = .confirmSignUp clientId login code)
    (done : confirmSignUp store clientId login code input.now = .ok after) :
    Writes input store after := by
  obtain ⟨⟨pool, user⟩, found, rest⟩ := bind_ok done
  obtain ⟨_, _, rest⟩ := bind_ok rest
  obtain ⟨checked, taken, rest⟩ := bind_ok rest
  obtain ⟨_, _, rest⟩ := bind_ok rest
  cases rest
  have member := (withClientUser_known found).member
  rw [← checkCode_users taken] at member
  exact Relation.ReflTransGen.head (Write.codeTaken taken)
    (Writes.one (Write.confirmed member pool (Or.inr ⟨_, _, _, tx⟩)))

theorem writes_confirmForgotPassword {clientId login code password : String}
    (tx : input.tx = .confirmForgotPassword clientId login code password)
    (done : confirmForgotPassword store clientId login code password input.now = .ok after) :
    Writes input store after := by
  obtain ⟨⟨pool, user⟩, found, rest⟩ := bind_ok done
  obtain ⟨checked, taken, rest⟩ := bind_ok rest
  obtain ⟨_, set, rest⟩ := bind_ok rest
  cases rest
  have member := (withClientUser_known found).member
  rw [← checkCode_users taken] at member
  obtain ⟨second, memberChanged, _⟩ := writes_setPassword member set
  exact Relation.ReflTransGen.head (Write.codeTaken taken)
    (second.tail (Write.reset memberChanged ⟨_, _, _, _, tx⟩))

end Functions

/-! ### The transactions -/

/-- **Every transaction is a sequence of writes.** -/
theorem transact_writes {ctx : Ctx} {store after : Store} {input : Input} {response : Response}
    (done : transact ctx store input = .ok (response, after)) : Writes input store after := by
  unfold transact at done
  cases tx : input.tx <;> simp only [tx] at done
  case createUserPool =>
    obtain ⟨_, made, _⟩ := answerWith_ok done
    exact Writes.one (Write.poolCreated made)
  case updateUserPool => exact Writes.one (Write.poolUpdated tx (noAnswer_ok done).1)
  case deleteUserPool => exact Writes.one (Write.poolDeleted (noAnswer_ok done).1)
  case createUserPoolClient =>
    obtain ⟨_, made, _⟩ := answerWith_ok done
    exact writes_createClient made
  case updateUserPoolClient =>
    obtain ⟨_, made, _⟩ := answerWith_ok done
    exact writes_updateUserPoolClient made
  case deleteUserPoolClient => exact writes_deleteClient (noAnswer_ok done).1
  case adminCreateUser =>
    obtain ⟨_, made, _⟩ := answerWith_ok done
    exact writes_adminCreateUser tx made
  case adminSetEnabled => exact writes_adminSetEnabled (noAnswer_ok done).1
  case adminDeleteUser =>
    obtain ⟨_, _, rest⟩ := bind_ok (noAnswer_ok done).1
    cases rest
    exact Writes.one (Write.userDeleted _)
  case adminSetUserPassword => exact writes_adminSetUserPassword (noAnswer_ok done).1
  case adminUserGlobalSignOut =>
    obtain ⟨⟨pool, user⟩, found, rest⟩ := bind_ok (noAnswer_ok done).1
    cases rest
    exact writes_globalSignOut (withUser_known found).member _
  case adminUpdateUserAttributes => exact writes_adminUpdateUserAttributes tx (noAnswer_ok done).1
  case adminDeleteUserAttributes => exact writes_adminDeleteUserAttributes (noAnswer_ok done).1
  case adminConfirmSignUp => exact writes_adminConfirmSignUp tx (noAnswer_ok done).1
  case adminResetUserPassword => exact writes_adminResetUserPassword tx (noAnswer_ok done).1
  case initiateAuth => exact writes_initiateAuth done
  case initiateRefresh =>
    obtain ⟨_, made, _⟩ := answerWith_ok done
    obtain ⟨_, _, rest⟩ := bind_ok made
    obtain ⟨_, _, rest⟩ := bind_ok rest
    exact writes_refresh rest
  case respondToAuthChallenge =>
    obtain ⟨_, made, _⟩ := answerWith_ok done
    exact writes_respondToAuthChallenge tx made
  case getUser token =>
    cases found : accessUser store ctx token input.now with
    | error error => rw [found] at done; cases done
    | ok user => rw [found] at done; cases done; exact Relation.ReflTransGen.refl
  case globalSignOut =>
    obtain ⟨_, found, rest⟩ := bind_ok (noAnswer_ok done).1
    cases rest
    exact writes_globalSignOut (accessUser_mem found) _
  case changePassword => exact writes_changePassword (noAnswer_ok done).1
  case revokeToken =>
    obtain ⟨_, made, _⟩ := answerWith_ok done
    obtain ⟨_, _, rest⟩ := bind_ok made
    obtain ⟨_, _, rest⟩ := bind_ok rest
    exact writes_revokeRefresh rest
  case signUp =>
    obtain ⟨_, made, _⟩ := answerWith_ok done
    exact writes_signUp tx made
  case confirmSignUp => exact writes_confirmSignUp tx (noAnswer_ok done).1
  case resendConfirmationCode =>
    obtain ⟨_, made, _⟩ := answerWith_ok done
    exact writes_sendCode (by rw [tx]; rfl) made
  case forgotPassword =>
    obtain ⟨_, made, _⟩ := answerWith_ok done
    exact writes_sendCode (by rw [tx]; rfl) made
  case confirmForgotPassword => exact writes_confirmForgotPassword tx (noAnswer_ok done).1
  case sessionUser => cases done; exact Relation.ReflTransGen.refl
  case login => exact writes_login done
  case loginNewPassword =>
    obtain ⟨_, made, _⟩ := answerWith_ok done
    exact writes_loginNewPassword made
  case createSession => cases done; exact Writes.of_same rfl rfl rfl (Nat.le_succ _)
  case createCode => cases done; exact Writes.of_same rfl rfl rfl (Nat.le_succ _)
  case implicitTokens => cases done; exact issueTokens_same _ _ _ _ _ _
  case exchange =>
    obtain ⟨_, made, _⟩ := answerWith_ok done
    exact writes_exchange made
  case refresh =>
    obtain ⟨_, made, _⟩ := answerWith_ok done
    exact writes_refresh made
  case revoke =>
    obtain ⟨_, made, _⟩ := answerWith_ok done
    exact writes_revokeRefresh made
  case deleteSession => cases done; exact Writes.of_same rfl rfl rfl le_rfl

theorem perform_writes {ctx : Ctx} {event : CognitoEvent} (taken : event.Taken (perform ctx)) :
    Writes event.input event.before event.after := by
  rcases taken_commit taken with ⟨_, _, same⟩ | ⟨_, _, done⟩
  · rw [same]
  · exact transact_writes done

end External

end CloudTwin.Cognito
