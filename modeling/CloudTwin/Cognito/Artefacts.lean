/-
**Sign-in artefacts after a sign-out or a deletion.**

A sign-in leaves a session, a code or a challenge, each a row under a random key. A sign-out deletes
the sessions of the user, a deletion also the codes and the challenges; what is deleted does not
come back, whoever is created under the same name later. A sign-out leaves codes and challenges, and
neither can see a sign-in that has not stored its session yet.

* `artefacts_end` — what a sign-out and a deletion end, in every run.
* `artefacts_survive` — what they do not end.
-/

import CloudTwin.Cognito.Challenges
import CloudTwin.Cognito.Codes

namespace CloudTwin.Cognito

open Lib

set_option linter.unusedSectionVars false

section External

variable [External] [Crypto]

/-! ### What a store has of an artefact -/

/-- Every session under the key is the user's. -/
def SessionOf (user : User) (store : Store) (id : String) : Prop :=
  ∀ row ∈ store.sessions, row.id = id → row.poolId = user.poolId ∧ row.username = user.username

/-- Every code under the key is the user's. -/
def CodeOf (user : User) (store : Store) (code : String) : Prop :=
  ∀ row ∈ store.authCodes, row.code = code →
    row.poolId = user.poolId ∧ row.issued.username = user.username

/-- Every challenge under the key is the user's. -/
def ChallengeOf (user : User) (store : Store) (session : String) : Prop :=
  ∀ row ∈ store.challenges, row.session = session →
    row.poolId = user.poolId ∧ row.username = user.username

theorem session_none {store : Store} {id : String} (absent : ∀ row ∈ store.sessions, row.id ≠ id)
    (poolId : String) (now : Int) : sessionUser store poolId id now = none := by
  have missing : (store.sessions.find? fun row => row.id == id && row.poolId == poolId) = none := by
    rw [List.find?_eq_none]
    intro row member same
    rw [Bool.and_eq_true, beq_iff_eq] at same
    exact absent row member same.1
  unfold sessionUser
  rw [missing]
  rfl

theorem kept_other {rowPool rowUser poolId username : String}
    (kept : (!(rowPool == poolId && rowUser == username)) = true) :
    ¬ (rowPool = poolId ∧ rowUser = username) := by
  rintro ⟨rfl, rfl⟩
  simp at kept

section Ended

variable {user : User} {before : Store}

theorem signedOut_sessions (now : Int) {id : String} (own : SessionOf user before id) :
    ∀ row ∈ (globalSignOut before user now).sessions, row.id ≠ id := by
  intro row member same
  obtain ⟨old, kept⟩ := List.mem_filter.mp member
  exact kept_other kept (own row old same)

theorem deleted_sessions {id : String} (own : SessionOf user before id) :
    ∀ row ∈ (deleteUser before user).sessions, row.id ≠ id := by
  intro row member same
  obtain ⟨old, kept⟩ := List.mem_filter.mp member
  exact kept_other kept (own row old same)

theorem deleted_codes {code : String} (own : CodeOf user before code) :
    ∀ row ∈ (deleteUser before user).authCodes, row.code ≠ code := by
  intro row member same
  obtain ⟨old, kept⟩ := List.mem_filter.mp member
  exact kept_other kept (own row old same)

theorem deleted_challenges {session : String} (own : ChallengeOf user before session) :
    ∀ row ∈ (deleteUser before user).challenges, row.session ≠ session := by
  intro row member same
  obtain ⟨old, kept⟩ := List.mem_filter.mp member
  exact kept_other kept (own row old same)

end Ended

/-! ### The events that leave an artefact -/

/-- The event stores a session for the user. -/
def LeavesSession (event : CognitoEvent) (user : User) (id : String) : Prop :=
  event.output = .ok (.created id) ∧
    ∃ signed authTime, event.input.tx = .createSession signed authTime ∧
      signed.Is user.poolId user.username

/-- The event stores a code for the user. -/
def LeavesCode (event : CognitoEvent) (user : User) (code : String) : Prop :=
  event.output = .ok (.created code) ∧
    ∃ issued, event.input.tx = .createCode user.poolId issued ∧ issued.username = user.username

/-- The event stores a challenge for the user. The hosted UI reads the pool as that of the client. -/
def LeavesChallenge (event : CognitoEvent) (user : User) (session : String) : Prop :=
  (∃ challenged : User, event.output = .ok (.challenge session challenged) ∧
    challenged.Is user.poolId user.username) ∧
  ∀ pool client name password, event.input.tx = .login pool client name password →
    pool.id = client.poolId

section Leaves

variable {ctx : Ctx} {past : List CognitoEvent} {event : CognitoEvent} {user : User}

/-- The key of a session was drawn by the event, and is the user's alone. -/
theorem LeavesSession.own {id : String} (leaves : LeavesSession event user id)
    (random : CryptoLaws ‹Crypto›) (run : Run (perform ctx) Store.empty past event.before)
    (taken : event.Taken (perform ctx)) :
    (∃ draw < event.after.drawn, id = Crypto.randomToken draw) ∧ SessionOf user event.after id := by
  obtain ⟨answered, signed, authTime, tx, is⟩ := leaves
  have done := taken_ok taken answered
  unfold transact at done
  rw [tx] at done
  obtain ⟨created, stored⟩ := Prod.mk.inj (Except.ok.inj done)
  have id := (Response.created.inj created).symm
  rw [← stored, id]
  refine ⟨⟨event.before.drawn, Nat.lt_succ_self _, rfl⟩, fun row member same => ?_⟩
  rcases List.mem_append.mp member with old | new
  · rcases (run_grows run).sessions row old with none | ⟨draw, _, most, key⟩
    · cases none
    · have equal := random.fresh (key.symm.trans same)
      omega
  · rw [List.mem_singleton.mp new]
    exact is

theorem LeavesCode.own {code : String} (leaves : LeavesCode event user code)
    (uuids : UuidLaws ‹External›) (run : Run (perform ctx) Store.empty past event.before)
    (taken : event.Taken (perform ctx)) :
    (∃ draw < event.after.drawn, code = External.uuid draw) ∧ CodeOf user event.after code := by
  obtain ⟨answered, issued, tx, is⟩ := leaves
  obtain ⟨key, stored⟩ := issue_taken taken tx answered
  rw [stored, key]
  refine ⟨⟨event.before.drawn, Nat.lt_succ_self _, rfl⟩, fun row member same => ?_⟩
  rcases List.mem_append.mp member with old | new
  · obtain ⟨draw, _, most, drawn⟩ := code_drawn run row old
    have equal := uuids.fresh (drawn.symm.trans same)
    omega
  · rw [List.mem_singleton.mp new]
    exact ⟨rfl, is⟩

theorem LeavesChallenge.own {session : String} (leaves : LeavesChallenge event user session)
    (random : CryptoLaws ‹Crypto›) (run : Run (perform ctx) Store.empty past event.before)
    (taken : event.Taken (perform ctx)) :
    (∃ draw < event.after.drawn, session = Crypto.randomToken draw) ∧
      ChallengeOf user event.after session := by
  obtain ⟨⟨challenged, answered, is⟩, readPool⟩ := leaves
  obtain ⟨client, _, inPool, stored⟩ := challenge_taken taken answered
  have inPool := inPool readPool
  obtain ⟨key, after⟩ := Prod.mk.inj stored
  rw [after, key]
  refine ⟨⟨event.before.drawn, Nat.lt_succ_self _, rfl⟩, fun row member same => ?_⟩
  rcases List.mem_append.mp member with old | new
  · rcases (run_grows run).challenges row old with none | ⟨draw, _, most, drawn⟩
    · cases none
    · have equal := random.fresh (drawn.symm.trans same)
      omega
  · rw [List.mem_singleton.mp new]
    exact ⟨inPool.symm.trans is.1, is.2⟩

end Leaves

/-! ### Every run -/

/-- **What ends with a sign-out or a deletion.** In every run: after the user is signed out or
deleted, no session stored for the user before resolves, in any later state; after the user is
deleted, moreover, no code stored for the user before is exchanged for tokens, and no challenge
stored for the user before is taken, whoever has the name by then. -/
theorem artefacts_end (uuids : UuidLaws ‹External›) (random : CryptoLaws ‹Crypto›) {ctx : Ctx}
    {past rest : List CognitoEvent} {event : CognitoEvent} {store : Store}
    (served : CognitoRun ctx (past ++ event :: rest) store) (user : User) :
    (SignsOut ctx event user ∨ Deletes event user →
      ∀ issue ∈ past, ∀ id, LeavesSession issue user id →
      ∀ poolId now, sessionUser store poolId id now = none) ∧
    (Deletes event user →
      (∀ issue ∈ past, ∀ code, LeavesCode issue user code →
        ∀ client redirectUri verifier now tokens after,
          exchange store ctx client code redirectUri verifier now ≠ .ok (.ok tokens, after)) ∧
      ∀ issue ∈ past, ∀ session, LeavesChallenge issue user session →
        ∀ client challenge now result,
          takeChallenge store client session challenge now ≠ .ok result) := by
  obtain ⟨runPast, taken, runRest⟩ := served.run.around
  have grows := perform_grows taken
  refine ⟨fun ends issue member id leaves poolId now => ?_, fun deletes =>
    ⟨fun issue member code leaves client redirectUri verifier now tokens after granted => ?_,
      fun issue member session leaves client challenge now result took => ?_⟩⟩
  · obtain ⟨first, between, rfl⟩ := List.append_of_mem member
    obtain ⟨runFirst, takenIssue, runBetween⟩ := runPast.around
    obtain ⟨⟨draw, early, rfl⟩, own⟩ := leaves.own random runFirst takenIssue
    have still := (run_grows runBetween).session_stable random early _ own
    have early := Nat.lt_of_lt_of_le early (run_grows runBetween).drawn
    have ended : ∀ row ∈ event.after.sessions, row.id ≠ Crypto.randomToken draw := by
      rcases ends with signsOut | deletes
      · rw [signsOut_taken taken signsOut]
        exact signedOut_sessions _ still
      · rw [deletes_taken taken deletes]
        exact deleted_sessions still
    have early := Nat.lt_of_lt_of_le early grows.drawn
    exact session_none ((run_grows runRest).session_stable random early _ ended) poolId now
  · obtain ⟨first, between, rfl⟩ := List.append_of_mem member
    obtain ⟨runFirst, takenIssue, runBetween⟩ := runPast.around
    obtain ⟨⟨draw, early, rfl⟩, own⟩ := leaves.own uuids runFirst takenIssue
    have still := (run_grows runBetween).code_stable uuids early _
      (fun _ _ same holds => And.intro (same.poolId ▸ holds.1) (same.issued ▸ holds.2)) own
    have early := Nat.lt_of_lt_of_le early (run_grows runBetween).drawn
    have ended := deleted_codes still
    rw [← deletes_taken taken deletes] at ended
    have early := Nat.lt_of_lt_of_le early grows.drawn
    obtain ⟨row, memberRow, same, _⟩ := exchange_granted granted
    exact (run_grows runRest).code_stable uuids early _ (fun _ _ _ absurd => absurd) ended row
      memberRow same
  · obtain ⟨first, between, rfl⟩ := List.append_of_mem member
    obtain ⟨runFirst, takenIssue, runBetween⟩ := runPast.around
    obtain ⟨⟨draw, early, rfl⟩, own⟩ := leaves.own random runFirst takenIssue
    have still := (run_grows runBetween).challenge_stable random early _ own
    have early := Nat.lt_of_lt_of_le early (run_grows runBetween).drawn
    have ended := deleted_challenges still
    rw [← deletes_taken taken deletes] at ended
    have early := Nat.lt_of_lt_of_le early grows.drawn
    obtain ⟨row, memberRow, same, _⟩ := takeChallenge_ok took
    exact (run_grows runRest).challenge_stable random early _ ended row memberRow same

end External

/-! ### What survives -/

section Sample

attribute [local instance] sampleExternal Crypto.sample

/-- **What a sign-out or a deletion does not end**: a code stored before a sign-out is exchanged
after it; a challenge stored before a sign-out is answered after it; and a session is stored, for a
user created anew under the same name, after the user whose password was checked was deleted. -/
theorem artefacts_survive :
    (∃ tokens, sampleAnswer (sampleUsers ++ [.createCode samplePoolId sampleCode,
        .adminUserGlobalSignOut samplePoolId "dev"]) sampleExchange =
      .ok (.exchanged (.ok tokens))) ∧
    (∃ session user tokens,
      sampleAnswer sampleInvited (.initiateAuth none sampleClientId "dev" "temporary") =
        .ok (.challenge session user) ∧
      sampleAnswer (sampleInvited ++ [.initiateAuth none sampleClientId "dev" "temporary",
          .adminUserGlobalSignOut samplePoolId "dev"])
        (.respondToAuthChallenge none sampleClientId session "password" []) =
          .ok (.tokens tokens)) ∧
    ∃ session found,
      sampleAnswer (samplePool ++ sampleUser []) (.login samplePoolRow sampleClient "dev" "password")
        = .ok (.user sampleUserRow) ∧
      sampleAnswer (samplePool ++ sampleUser [] ++ [.adminDeleteUser samplePoolId "dev"] ++
          sampleUser []) (.createSession sampleUserRow 0) = .ok (.created session) ∧
      sampleAnswer (samplePool ++ sampleUser [] ++ [.adminDeleteUser samplePoolId "dev"] ++
          sampleUser [] ++ [.createSession sampleUserRow 0]) (.sessionUser samplePoolId session) =
        .ok (.session (some found)) :=
  ⟨⟨_, rfl⟩, ⟨_, _, _, rfl, rfl⟩, ⟨_, _, rfl, rfl, rfl⟩⟩

/-- After a deletion, a session stored before does not resolve. -/
theorem artefacts_end_sample : sessionUser
    (sampleStore (samplePool ++ sampleUser [] ++
      [.createSession sampleUserRow 0, .adminDeleteUser samplePoolId "dev"] ++ sampleUser []))
    samplePoolId (Crypto.randomToken 7) 0 = none := by
  have uuids : UuidLaws sampleExternal := ⟨sample_laws.fresh, sample_laws.noBar⟩
  have ended := (artefacts_end uuids sample_fresh
    (CognitoRun.of_cut sampleCtx
      (sampleInputs (samplePool ++ sampleUser [] ++ [.createSession sampleUserRow 0]))
      { now := 0, tx := .adminDeleteUser samplePoolId "dev" } (sampleInputs (sampleUser []))
      (by decide)) sampleUserRow).1
  exact ended (Or.inr ⟨rfl, _, _, samplePoolRow, rfl, rfl⟩)
    (Event.of (perform sampleCtx) sampleSignedUp { now := 0, tx := .createSession sampleUserRow 0 })
    (List.mem_of_getElem? (i := 4) rfl) _ ⟨rfl, sampleUserRow, 0, rfl, rfl, rfl⟩ _ _

end Sample

end CloudTwin.Cognito
