/-
**New-password challenges.**

A sign-in with a temporary password is answered with a challenge: a row under a random key that
names the client, the user and a time. Setting a password with the key deletes the row; an attempt
that is rejected is rolled back, and leaves all as it was. The state of the user is not looked at:
each of several challenges of a user sets a password.

* `challenge_taken` — the transactions that store a challenge.
* `PasswordSet` — the users after a password is set: the row of one user has the new password, and
  all other rows are as they were.
* `challenge_single_use` — in every run, a challenge sets a password at most once, with its client,
  in its time and for its user alone.
* `challenge_outdated` — a challenge that sets a password after another one has.
-/

import CloudTwin.Cognito.Revocation

namespace CloudTwin.Cognito

open Lib

set_option linter.unusedSectionVars false

section External

variable [External] [Crypto]

/-! ### Storing a challenge -/

theorem authenticate_pool {store : Store} {pool : Pool} {client : Option Client}
    {login password : String} {challenged : User}
    (done : authenticate store pool client login password = .ok (.newPasswordRequired challenged)) :
    challenged.poolId = pool.id := by
  unfold authenticate at done
  cases found : findUser store pool login with
  | none =>
    simp only [found] at done
    split at done <;> cases done
  | some user =>
    simp only [found] at done
    split at done
    · cases done
    · split at done
      · cases done
      · cases status : user.status <;> simp only [status] at done <;> cases done
        exact (findUser_mem found).2

/-- The client that a sign-in names. -/
def SignsInWith (event : CognitoEvent) (client : Client) : Prop :=
  (∃ poolId login password,
    event.input.tx = .initiateAuth poolId client.clientId login password ∧
      getClient event.before poolId client.clientId = .ok client) ∨
    ∃ pool name password, event.input.tx = .login pool client name password

theorem getClient_id {store : Store} {poolId : Option String} {clientId : String} {client : Client}
    (found : getClient store poolId clientId = .ok client) : client.clientId = clientId := by
  unfold getClient at found
  rw [okOr_ok, Option.filter_eq_some_iff] at found
  simpa using List.find?_some found.1

/-- **A challenge is stored by InitiateAuth and by the login form.** The login form has read its pool
as that of the client. -/
theorem challenge_taken {ctx : Ctx} {event : CognitoEvent} {session : String} {challenged : User}
    (taken : event.Taken (perform ctx))
    (answered : event.output = .ok (.challenge session challenged)) :
    ∃ client : Client, SignsInWith event client ∧
      ((∀ pool client name password, event.input.tx = .login pool client name password →
        pool.id = client.poolId) → challenged.poolId = client.poolId) ∧
      (session, event.after) =
        createChallenge event.before client challenged "NEW_PASSWORD_REQUIRED" event.input.now := by
  have done := taken_ok taken answered
  rcases event with ⟨before, input, output, after⟩
  unfold transact at done
  cases tx : input.tx <;> simp only [tx] at done
  case initiateAuth poolId clientId login password =>
    obtain ⟨client, named, rest⟩ := bind_ok done
    obtain ⟨_, _, rest⟩ := bind_ok rest
    obtain ⟨pool, known, rest⟩ := bind_ok rest
    obtain ⟨outcome, authenticated, rest⟩ := bind_ok rest
    cases outcome with
    | ok user => cases rest
    | newPasswordRequired user =>
      cases rest
      have inPool := authenticate_pool authenticated
      unfold getPool at known
      rw [okOr_ok] at known
      refine ⟨client, Or.inl ⟨poolId, login, password, ?_⟩,
        fun _ => inPool.trans (findPool_id known), rfl⟩
      rw [getClient_id named]
      exact ⟨tx, named⟩
  case login pool client name password =>
    obtain ⟨outcome, authenticated, rest⟩ := bind_ok done
    cases outcome with
    | ok user => cases rest
    | newPasswordRequired user =>
      cases rest
      exact ⟨client, Or.inr ⟨pool, name, password, tx⟩,
        fun readPool => (authenticate_pool authenticated).trans (readPool _ _ _ _ rfl), rfl⟩
  case getUser token =>
    cases found : accessUser before ctx token input.now with
    | error error => rw [found] at done; cases done
    | ok user => rw [found] at done; cases done
  case sessionUser => cases done
  case createSession => cases done
  case createCode => cases done
  case implicitTokens => cases done
  case deleteSession => cases done
  all_goals first
    | exact absurd (noAnswer_ok done).2 nofun
    | exact (answerWith_ok done).elim fun _ made => absurd made.2 nofun

/-! ### Setting a password with a challenge -/

/-- The event sets the password with the challenge, through the client. -/
def SetsPassword (event : CognitoEvent) (session : String) (client : Client)
    (newPassword : String) : Prop :=
  (∃ poolId attributes tokens,
    event.input.tx = .respondToAuthChallenge poolId client.clientId session newPassword attributes ∧
      getClient event.before poolId client.clientId = .ok client ∧
      event.output = .ok (.tokens tokens)) ∨
    ∃ pool user, event.input.tx = .loginNewPassword pool client session newPassword ∧
      event.output = .ok (.user user)

/-- **The effect of setting a password**: the user exists and is enabled, it has the new password
afterwards and is confirmed, and no other row of the table is touched. -/
structure PasswordSet (event : CognitoEvent) (poolId username newPassword : String) : Prop where
  holder : ∃ user, userByUsername event.before poolId username = some user ∧ user.enabled = true
  here : ∃ user ∈ event.after.users, user.Is poolId username
  named : ∀ user ∈ event.after.users, user.Is poolId username →
    verifyPassword user newPassword = true ∧ user.status = .confirmed
  others : (event.after.users.filter fun user => ¬ user.Is poolId username) =
    event.before.users.filter fun user => ¬ user.Is poolId username

/-- The table after the row of one user has been written. -/
structure Rewritten (before after : List User) (user : User) : Prop where
  here : (∃ row ∈ before, row.Is user.poolId user.username) →
    ∃ row ∈ after, row.Is user.poolId user.username
  named : ∀ row ∈ after, row.Is user.poolId user.username →
    row.passwordHash = user.passwordHash ∧ row.passwordSalt = user.passwordSalt ∧
      row.status = user.status
  others : (after.filter fun row => ¬ row.Is user.poolId user.username) =
    before.filter fun row => ¬ row.Is user.poolId user.username

theorem rewritten_saveUser (store : Store) (user : User) :
    Rewritten store.users (saveUser store user).users user := by
  refine ⟨fun ⟨row, member, is⟩ => ?_, fun row member is => ?_, ?_⟩
  · exact ⟨_, List.mem_map_of_mem member, by rw [if_pos is]; exact is⟩
  · obtain ⟨old, _, rfl⟩ := List.mem_map.mp member
    by_cases was : old.Is user.poolId user.username
    · rw [if_pos was]
      exact ⟨rfl, rfl, rfl⟩
    · rw [if_neg was] at is
      exact absurd is was
  · show (store.users.map _).filter _ = _
    induction store.users with
    | nil => rfl
    | cons row rest ih =>
      rw [List.map_cons, List.filter_cons, List.filter_cons, ih]
      by_cases is : row.Is user.poolId user.username
      · have dropped : ∀ named : User, named.Is user.poolId user.username →
            ¬ decide (¬ named.Is user.poolId user.username) = true := by simp
        rw [if_pos is, if_neg (dropped row is)]
        exact if_neg (dropped _ ⟨is.1, is.2⟩)
      · rw [if_neg is]

theorem Rewritten.trans {first second third : List User} {one two : User}
    (earlier : Rewritten first second one) (later : Rewritten second third two)
    (pool : one.poolId = two.poolId) (name : one.username = two.username) :
    Rewritten first third two := by
  obtain ⟨here, _, others⟩ := earlier
  rw [pool, name] at here others
  exact ⟨fun was => later.here (here was), later.named, later.others.trans others⟩

theorem setPassword_rewritten {store after : Store} {pool : Pool} {user changed : User}
    {password : String} {permanent : Bool}
    (done : setPassword store pool user password permanent = .ok (changed, after)) :
    Rewritten store.users after.users changed ∧ changed.poolId = user.poolId ∧
      changed.username = user.username ∧ verifyPassword changed password = true ∧
      (permanent = true → changed.status = .confirmed) := by
  obtain ⟨_, _, rest⟩ := bind_ok done
  cases rest
  refine ⟨rewritten_saveUser _ _, rfl, rfl, ?_, fun always => if_pos always⟩
  simp [verifyPassword, setPasswordFields]

theorem updateGiven_rewritten {store after : Store} {pool : Pool} {user changed : User}
    {attributes : List (String × String)} {before : List User}
    (done : updateGiven store pool user attributes = .ok (changed, after))
    (written : Rewritten before store.users user) :
    Rewritten before after.users changed ∧ changed.poolId = user.poolId ∧
      changed.username = user.username ∧ changed.passwordHash = user.passwordHash ∧
      changed.passwordSalt = user.passwordSalt ∧ changed.status = user.status := by
  unfold updateGiven at done
  split at done
  · cases done
    exact ⟨written, rfl, rfl, rfl, rfl, rfl⟩
  · obtain ⟨attributes, _, rest⟩ := bind_ok done
    cases rest
    exact ⟨written.trans (rewritten_saveUser store { user with attributes }) rfl rfl, rfl, rfl, rfl,
      rfl, rfl⟩

theorem issueTokens_users (store : Store) (ctx : Ctx) (pool : Pool) (client : Client) (user : User)
    (opts : IssueOpts) (now : Int) :
    (issueTokens store ctx pool client user opts now).2.users = store.users := by
  unfold issueTokens originOf refreshTokenOf
  cases opts.originJti with
  | none => cases opts.refresh <;> rfl
  | some origin => cases opts.refresh <;> rfl

/-- What the row that was written says is what the user of the name has. -/
theorem Rewritten.passwordSet {event : CognitoEvent} {user changed : User}
    {poolId username newPassword : String}
    (found : userByUsername event.before poolId username = some user) (enabled : user.enabled = true)
    (written : Rewritten event.before.users event.after.users changed)
    (pool : changed.poolId = user.poolId) (name : changed.username = user.username)
    (verified : verifyPassword changed newPassword = true) (confirmed : changed.status = .confirmed) :
    PasswordSet event poolId username newPassword := by
  obtain ⟨member, inPool, isNamed⟩ := userByUsername_mem found
  obtain ⟨here, named, others⟩ := written
  rw [pool, name, inPool, isNamed] at here named others
  refine ⟨⟨user, found, enabled⟩, here ⟨user, member, inPool, isNamed⟩, fun row stored is => ?_,
    others⟩
  obtain ⟨hash, salt, status⟩ := named row stored is
  refine ⟨?_, status.trans confirmed⟩
  rw [verifyPassword, hash, salt]
  exact verified

theorem setPassword_challenges {store after : Store} {pool : Pool} {user changed : User}
    {password : String} {permanent : Bool}
    (done : setPassword store pool user password permanent = .ok (changed, after)) :
    after.challenges = store.challenges := by
  obtain ⟨_, _, rest⟩ := bind_ok done
  cases rest
  rfl

theorem updateGiven_challenges {store after : Store} {pool : Pool} {user changed : User}
    {attributes : List (String × String)}
    (done : updateGiven store pool user attributes = .ok (changed, after)) :
    after.challenges = store.challenges := by
  unfold updateGiven at done
  split at done
  · cases done
    rfl
  · obtain ⟨_, _, rest⟩ := bind_ok done
    cases rest
    rfl

theorem issueTokens_challenges (store : Store) (ctx : Ctx) (pool : Pool) (client : Client)
    (user : User) (opts : IssueOpts) (now : Int) :
    (issueTokens store ctx pool client user opts now).2.challenges = store.challenges := by
  unfold issueTokens originOf refreshTokenOf
  cases opts.originJti with
  | none => cases opts.refresh <;> rfl
  | some origin => cases opts.refresh <;> rfl

/-- **What setting a password takes**: the row of the challenge, which it deletes, and its user. -/
theorem setsPassword_taken {ctx : Ctx} {event : CognitoEvent} {session newPassword : String}
    {client : Client} (taken : event.Taken (perform ctx))
    (sets : SetsPassword event session client newPassword) :
    (∃ row ∈ event.before.challenges, row.session = session ∧ row.clientId = client.clientId ∧
      event.input.now ≤ row.expiresAt ∧
      PasswordSet event client.poolId row.username newPassword) ∧
    ∀ row ∈ event.after.challenges, row.session ≠ session := by
  have gone : ∀ {user : User} {stored after : Store},
      takeChallenge event.before client session "NEW_PASSWORD_REQUIRED" event.input.now =
        .ok (user, stored) → after.challenges = stored.challenges →
      ∀ row ∈ after.challenges, row.session ≠ session := by
    intro user stored after took same row member
    obtain ⟨_, _, _, _, _, _, _, rfl⟩ := takeChallenge_ok took
    rw [same] at member
    simpa using (List.mem_filter.mp member).2
  rcases sets with ⟨poolId, attributes, tokens, tx, named, answered⟩ | ⟨pool, user, tx, answered⟩
  · have done := taken_ok taken answered
    unfold transact at done
    rw [tx] at done
    obtain ⟨_, made, _⟩ := answerWith_ok done
    obtain ⟨found, same, rest⟩ := bind_ok made
    rw [named] at same
    cases same
    obtain ⟨pool, _, rest⟩ := bind_ok rest
    obtain ⟨⟨user, stored⟩, took, rest⟩ := bind_ok rest
    obtain ⟨_, enabled, rest⟩ := bind_ok rest
    obtain ⟨⟨changed, set⟩, setDone, rest⟩ := bind_ok rest
    obtain ⟨⟨updated, written⟩, wrote, rest⟩ := bind_ok rest
    rw [rejectIf_ok, Bool.not_eq_false] at enabled
    obtain ⟨row, member, same, client, alive, _, holder, kept⟩ := takeChallenge_ok took
    have issued : (issueApiTokens written ctx pool _ updated event.input.now).2 = event.after :=
      congrArg Prod.snd (Except.ok.inj rest)
    obtain ⟨first, pool, name, verified, confirmed⟩ := setPassword_rewritten setDone
    obtain ⟨second, samePool, sameName, hash, salt, status⟩ := updateGiven_rewritten wrote first
    have rows : event.after.users = written.users := by
      rw [← issued]
      exact issueTokens_users _ _ _ _ _ _ _
    have whole : Rewritten event.before.users event.after.users updated := by
      rw [rows]
      rw [kept] at second
      exact second
    have known : verifyPassword updated newPassword = true := by
      rw [verifyPassword, hash, salt]
      exact verified
    refine ⟨⟨row, member, same, client, alive, whole.passwordSet holder enabled
      (samePool.trans pool) (sameName.trans name) known (status.trans (confirmed rfl))⟩,
      gone took ?_⟩
    rw [← issued]
    exact (issueTokens_challenges _ _ _ _ _ _ _).trans
      ((updateGiven_challenges wrote).trans (setPassword_challenges setDone))
  · have done := taken_ok taken answered
    unfold transact at done
    rw [tx] at done
    obtain ⟨_, made, _⟩ := answerWith_ok done
    obtain ⟨⟨holder, stored⟩, took, rest⟩ := bind_ok made
    obtain ⟨_, enabled, rest⟩ := bind_ok rest
    rw [rejectIf_ok, Bool.not_eq_false] at enabled
    obtain ⟨row, member, same, client, alive, _, here, kept⟩ := takeChallenge_ok took
    obtain ⟨whole, pool, name, verified, confirmed⟩ := setPassword_rewritten rest
    rw [kept] at whole
    exact ⟨⟨row, member, same, client, alive,
      whole.passwordSet here enabled pool name verified (confirmed rfl)⟩,
      gone took (setPassword_challenges rest)⟩

/-! ### Every run -/

/-- The only row under the key, and what it says. -/
theorem challenge_row {ctx : Ctx} (random : CryptoLaws ‹Crypto›) {past between : List CognitoEvent}
    {issue : CognitoEvent} {session : String} {challenged : User} {client : Client} {store : Store}
    (runPast : Run (perform ctx) Store.empty past issue.before)
    (stored : (session, issue.after) =
      createChallenge issue.before client challenged "NEW_PASSWORD_REQUIRED" issue.input.now)
    (run : Run (perform ctx) issue.after between store) :
    ∀ row ∈ store.challenges, row.session = session → row.clientId = client.clientId ∧
      row.username = challenged.username ∧
      row.expiresAt = issue.input.now + client.authSessionMinutes * 60 * 1000 := by
  obtain ⟨rfl, after⟩ := Prod.mk.inj stored
  have early : issue.before.drawn < issue.after.drawn := by
    rw [after]
    exact Nat.lt_succ_self _
  refine (run_grows run).challenge_stable random early _ fun row member same => ?_
  rw [after] at member
  rcases List.mem_append.mp member with old | new
  · rcases (run_grows runPast).challenges row old with none | ⟨draw, _, most, drawn⟩
    · cases none
    · have equal := random.fresh (drawn.symm.trans same)
      omega
  · rw [List.mem_singleton.mp new]
    exact ⟨rfl, rfl, rfl⟩

/-- **A challenge sets a password at most once.** In every run, a challenge that is issued to a
client sets no password before; a password is set with it only through that client, while it has
not expired, and for the user it names, who exists and is enabled, and no other row of the users is
changed; none is set with it twice; and an attempt that is rejected leaves all as it was. -/
theorem challenge_single_use (random : CryptoLaws ‹Crypto›) {ctx : Ctx}
    {past rest : List CognitoEvent} {issue : CognitoEvent} {store : Store} {session : String}
    {challenged : User} (served : CognitoRun ctx (past ++ issue :: rest) store)
    (answered : issue.output = .ok (.challenge session challenged)) :
    ∃ client, SignsInWith issue client ∧
      (∀ event ∈ past, ∀ other newPassword, ¬ SetsPassword event session other newPassword) ∧
      (∀ event ∈ rest, ∀ other newPassword, SetsPassword event session other newPassword →
        other.clientId = client.clientId ∧
        event.input.now ≤ issue.input.now + client.authSessionMinutes * 60 * 1000 ∧
        PasswordSet event other.poolId challenged.username newPassword) ∧
      (∀ first one between two last, rest = first ++ one :: (between ++ two :: last) →
        ∀ other newPassword, SetsPassword one session other newPassword →
          ∀ other newPassword, ¬ SetsPassword two session other newPassword) ∧
      ∀ event ∈ rest, ∀ error, event.output = .error error → event.after = event.before := by
  obtain ⟨runPast, takenIssue, runRest⟩ := served.run.around
  obtain ⟨client, signsIn, _, stored⟩ := challenge_taken takenIssue answered
  have onlyRow := fun {between : List CognitoEvent} {store : Store}
    (run : Run (perform ctx) issue.after between store) =>
      challenge_row random runPast stored run
  have key : session = Crypto.randomToken issue.before.drawn := congrArg Prod.fst stored
  have after : issue.after.drawn = issue.before.drawn + 1 :=
    congrArg (fun pair => pair.2.drawn) stored
  refine ⟨client, signsIn, fun event member other newPassword sets => ?_,
    fun event member other newPassword sets => ?_, ?_, fun event member error failed => ?_⟩
  · obtain ⟨first, last, rfl⟩ := List.append_of_mem member
    obtain ⟨runFirst, taken, runLast⟩ := runPast.around
    obtain ⟨⟨row, memberRow, same, _⟩, _⟩ := setsPassword_taken taken sets
    rcases (run_grows runFirst).challenges row memberRow with none | ⟨draw, _, most, drawn⟩
    · cases none
    · have equal := random.fresh (drawn.symm.trans (same.trans key))
      have later := ((perform_grows taken).trans (run_grows runLast)).drawn
      omega
  · obtain ⟨first, last, rfl⟩ := List.append_of_mem member
    obtain ⟨runFirst, taken, _⟩ := runRest.around
    obtain ⟨⟨row, memberRow, same, through, alive, effect⟩, _⟩ := setsPassword_taken taken sets
    obtain ⟨clientId, username, expiresAt⟩ := onlyRow runFirst row memberRow same
    rw [expiresAt] at alive
    rw [username] at effect
    exact ⟨through.symm.trans clientId, alive, effect⟩
  · rintro first one between two last rfl other newPassword setsOne other' newPassword' setsTwo
    obtain ⟨runFirst, takenOne, runAfter⟩ := runRest.around
    obtain ⟨runBetween, takenTwo, _⟩ := runAfter.around
    have gone := (setsPassword_taken takenOne setsOne).2
    obtain ⟨⟨row, memberRow, same, _⟩, _⟩ := setsPassword_taken takenTwo setsTwo
    have early : issue.before.drawn < one.after.drawn := by
      have later := ((run_grows runFirst).trans (perform_grows takenOne)).drawn
      omega
    rw [key] at gone same
    exact (run_grows runBetween).challenge_stable random early _ gone row memberRow same
  · have taken := runRest.taken_of_mem event member
    rcases taken_commit taken with ⟨_, _, unchanged⟩ | ⟨_, output, _⟩
    · exact unchanged
    · rw [failed] at output
      cases output

end External

/-! ### Two challenges of one user -/

section Sample

attribute [local instance] sampleExternal Crypto.sample

/-- The sample user with a temporary password. -/
def sampleInvited : List Tx :=
  samplePool ++
    [.adminCreateUser samplePoolId "dev" [] (some "temporary") (some "SUPPRESS") false]

/-- A sign-in with the temporary password. -/
def sampleFirstSignIn : Tx :=
  .initiateAuth none sampleClientId "dev" "temporary"

/-- A response to a challenge of the sample user. -/
def sampleRespond (session password : String) : Tx :=
  .respondToAuthChallenge none sampleClientId session password []

/-- What the sample user is answered. -/
def sampleAnswer (past : List Tx) (tx : Tx) : CResult Response :=
  (perform sampleCtx (sampleStore past) { now := 0, tx }).1

/-- **A challenge outlives the password it was issued for**: of two challenges of the user, the first
sets a password and confirms the user, and the second still sets another one. -/
theorem challenge_outdated : ∃ first second user user' tokens tokens',
    sampleAnswer sampleInvited sampleFirstSignIn = .ok (.challenge first user) ∧
    sampleAnswer (sampleInvited ++ [sampleFirstSignIn]) sampleFirstSignIn =
      .ok (.challenge second user') ∧
    sampleAnswer (sampleInvited ++ [sampleFirstSignIn, sampleFirstSignIn])
      (sampleRespond first "password") = .ok (.tokens tokens) ∧
    (userByUsername (sampleStore (sampleInvited ++ [sampleFirstSignIn, sampleFirstSignIn,
      sampleRespond first "password"])) samplePoolId "dev").map User.status = some .confirmed ∧
    sampleAnswer (sampleInvited ++ [sampleFirstSignIn, sampleFirstSignIn,
      sampleRespond first "password"]) (sampleRespond second "changed-once-more") =
        .ok (.tokens tokens') :=
  ⟨_, _, _, _, _, _, rfl, rfl, rfl, rfl, rfl⟩

/-- Two users with temporary passwords. -/
def sampleTwoUsers : List Tx :=
  sampleInvited ++
    [.adminCreateUser samplePoolId "admin" [] (some "temporary") (some "SUPPRESS") false]

/-- A response to the challenge of `dev`, after the transactions. -/
def sampleResponse (past : List Tx) (password : String) : CognitoEvent :=
  Event.of (perform sampleCtx) (sampleStore (sampleTwoUsers ++ sampleFirstSignIn :: past))
    { now := 0, tx := sampleRespond (Crypto.randomToken 9) password }

/-- The response sets the password of `dev` and leaves the other user as it was, and a second response
to the challenge sets no password. -/
theorem challenge_single_use_sample :
    PasswordSet (sampleResponse [] "password") samplePoolId "dev" "password" ∧
    (∃ admin ∈ (sampleResponse [] "password").before.users, admin.username = "admin" ∧
      admin ∈ (sampleResponse [] "password").after.users) ∧
    ¬ ∃ client newPassword,
      SetsPassword (sampleResponse [sampleRespond (Crypto.randomToken 9) "password"]
        "changed-once-more") (Crypto.randomToken 9) client newPassword := by
  obtain ⟨client, _, _, effect, once, _⟩ := challenge_single_use sample_fresh
    (CognitoRun.of_cut sampleCtx (sampleInputs sampleTwoUsers) { now := 0, tx := sampleFirstSignIn }
      (sampleInputs [sampleRespond (Crypto.randomToken 9) "password",
        sampleRespond (Crypto.randomToken 9) "changed-once-more"]) (by decide))
    (rfl : _ = Except.ok (Response.challenge (Crypto.randomToken 9) _))
  have sets : SetsPassword (sampleResponse [] "password") (Crypto.randomToken 9) sampleClient
      "password" := Or.inl ⟨none, _, _, rfl, rfl, rfl⟩
  have set : PasswordSet (sampleResponse [] "password") samplePoolId "dev" "password" :=
    (effect (sampleResponse [] "password") List.mem_cons_self sampleClient "password" sets).2.2
  refine ⟨set, ⟨_, List.mem_cons_of_mem _ List.mem_cons_self, rfl, ?_⟩, ?_⟩
  · -- The row of the other user is among the rows that stay.
    have stays : _ ∈ (sampleResponse [] "password").before.users.filter fun user =>
        ¬ user.Is samplePoolId "dev" :=
      List.mem_filter.mpr ⟨List.mem_cons_of_mem _ List.mem_cons_self, rfl⟩
    rw [← set.others] at stays
    exact (List.mem_filter.mp stays).1
  · rintro ⟨setter, newPassword, again⟩
    exact once [] _ [] _ [] rfl sampleClient "password" sets setter newPassword again

end Sample

end CloudTwin.Cognito
