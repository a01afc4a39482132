/-
**Authorization codes.**

An exchange marks the code used, whatever becomes of it: a failure is a value, so that the mark is
committed. What the code stands for never changes.

* `exchange_granted` — what an exchange that returns tokens has found, and what the tokens carry.
* `exchange_consumes` — an exchange that commits leaves no unused row under the code.
* `code_bound` — in every run, a code is exchanged for tokens at most once, by the client, with the
  redirect URI and the verifier, within the time and for the user it was issued for, and not after
  an attempt that was rejected.
* `tokens_carry_more` — a user with an attribute `nonce`, and a scope with a tab.
-/

import CloudTwin.Cognito.Tables

namespace CloudTwin.Cognito

open Lib Lib.Text

set_option linter.unusedSectionVars false

/-! ### Claims -/

theorem foldl_insert_absent {α : Type} (value : String → α → Json) (name : String)
    (entries : List (String × α)) (absent : ∀ entry ∈ entries, entry.1 ≠ name) (claims : Claims) :
    (entries.foldl (fun claims entry => claims.insert entry.1 (value entry.1 entry.2)) claims)[name]? =
      claims[name]? := by
  induction entries generalizing claims with
  | nil => rfl
  | cons entry rest ih =>
    rw [List.foldl_cons, ih (fun other member => absent other (List.mem_cons_of_mem _ member)),
      getElem_insert, if_neg (absent entry List.mem_cons_self)]

theorem foldl_insert_present {α : Type} (value : String → α → Json) {name : String} {content : α}
    (entries : List (String × α)) (distinct : entries.Pairwise fun first second => first.1 ≠ second.1)
    (present : (name, content) ∈ entries) (claims : Claims) :
    (entries.foldl (fun claims entry => claims.insert entry.1 (value entry.1 entry.2)) claims)[name]? =
      some (value name content) := by
  induction entries generalizing claims with
  | nil => cases present
  | cons entry rest ih =>
    rw [List.pairwise_cons] at distinct
    rw [List.foldl_cons]
    rcases List.mem_cons.mp present with here | later
    · rw [foldl_insert_absent value name rest fun other member same =>
        distinct.1 other member (by rw [← here, same]), getElem_insert, ← here, if_pos rfl]
    · exact ih distinct.2 later _

/-- The claims made from the attributes of a user. -/
theorem attributeClaims_get (attributes : Attributes) (name : String) :
    (attributes.toList.foldl (fun (claims : Claims) entry =>
      claims.insert entry.1 (idClaimValue entry.1 entry.2)) ∅)[name]? =
        attributes[name]?.map (idClaimValue name) := by
  cases found : attributes[name]? with
  | none =>
    rw [foldl_insert_absent idClaimValue]
    · simp
    · intro entry member same
      have there := Std.ExtTreeMap.mem_toList_iff_getElem?_eq_some.mp member
      rw [same, found] at there
      cases there
  | some content =>
    refine foldl_insert_present idClaimValue _ ?_
      (Std.ExtTreeMap.mem_toList_iff_getElem?_eq_some.mpr found) _
    refine Std.ExtTreeMap.distinct_keys_toList.imp fun different same => ?_
    exact different (Std.LawfulEqCmp.compare_eq_iff_eq.mpr same)

section External

variable [External] [Crypto]

section Claims

variable (ctx : Ctx) (pool : Pool) (client : Client) (user : User) (opts : IssueOpts)
  (origin eventId jti : String) (seconds : Int)

theorem accessClaims_scope :
    (accessClaims ctx pool client user opts origin eventId jti seconds)["scope"]? =
      some (.str (joinBlank opts.scopes)) := by
  simp only [accessClaims, List.foldl_cons, List.foldl_nil, getElem_insert, String.reduceEq,
    if_true, if_false]

theorem accessClaims_authTime :
    (accessClaims ctx pool client user opts origin eventId jti seconds)["auth_time"]? =
      some (.num opts.authTime) := by
  simp only [accessClaims, List.foldl_cons, List.foldl_nil, getElem_insert, String.reduceEq,
    if_true, if_false]

theorem idClaims_authTime :
    (idClaims ctx pool client user opts origin eventId jti seconds)["auth_time"]? =
      some (.num opts.authTime) := by
  unfold idClaims
  cases opts.nonce with
  | none =>
    simp only [List.foldl_cons, List.foldl_nil, getElem_insert, String.reduceEq, if_true, if_false]
  | some nonce =>
    simp only [List.foldl_cons, List.foldl_nil, getElem_insert, String.reduceEq, if_true, if_false]

/-- The nonce that was asked for, or else the user's attribute of that name. -/
theorem idClaims_nonce :
    (idClaims ctx pool client user opts origin eventId jti seconds)["nonce"]? =
      (opts.nonce.or user.attributes["nonce"]?).map Json.str := by
  unfold idClaims
  cases opts.nonce with
  | some nonce => simp only [getElem_insert, if_true, Option.some_or, Option.map_some]
  | none =>
    have plain : idClaimValue "nonce" = Json.str := by
      funext value
      have notVerified : endsWith "nonce" "_verified" = false := by decide
      simp [idClaimValue, notVerified]
    have own := attributeClaims_get user.attributes "nonce"
    rw [plain] at own
    simp only [List.foldl_cons, List.foldl_nil, getElem_insert, String.reduceEq, if_false,
      Option.none_or]
    split
    · simp only [getElem_insert, String.reduceEq, if_false]
      exact own
    · exact own

end Claims

/-- **The tokens carry what is stored with the code**: the words of its scope, its time of sign-in,
and its nonce. Without a nonce, that of the id token is an attribute of the user. -/
structure Carries (tokens : TokenSet) (issued : AuthCode) (user : User) : Prop where
  access : ∃ claims, tokens.accessToken = Crypto.sign claims ∧
    claims["scope"]? = some (.str (joinBlank (splitWhitespace issued.scope))) ∧
    claims["auth_time"]? = some (.num issued.authTime)
  identity : ∀ token, tokens.idToken = some token → ∃ claims, token = Crypto.sign claims ∧
    claims["auth_time"]? = some (.num issued.authTime) ∧
    claims["nonce"]? = (issued.nonce.or user.attributes["nonce"]?).map Json.str

theorem issueTokens_carries (store : Store) (ctx : Ctx) (pool : Pool) (client : Client)
    (user : User) (issued : AuthCode) (opts : IssueOpts) (now : Int)
    (scopes : opts.scopes = splitWhitespace issued.scope) (nonce : opts.nonce = issued.nonce)
    (authTime : opts.authTime = issued.authTime) :
    Carries (issueTokens store ctx pool client user opts now).1 issued user := by
  refine ⟨⟨_, rfl, ?_, ?_⟩, fun token given => ?_⟩
  · rw [accessClaims_scope, scopes]
  · rw [accessClaims_authTime, authTime]
  · unfold issueTokens at given
    cases wanted : opts.idToken with
    | false => simp [wanted] at given
    | true =>
      simp only [wanted, if_true, Option.map_some, Option.some.injEq] at given
      refine ⟨_, given.symm, ?_, ?_⟩
      · rw [idClaims_authTime, authTime]
      · rw [idClaims_nonce, nonce]

/-! ### One exchange -/

theorem issueTokens_authCodes (store : Store) (ctx : Ctx) (pool : Pool) (client : Client)
    (user : User) (opts : IssueOpts) (now : Int) :
    (issueTokens store ctx pool client user opts now).2.authCodes = store.authCodes := by
  unfold issueTokens originOf refreshTokenOf
  cases opts.originJti with
  | none => cases opts.refresh <;> rfl
  | some origin => cases opts.refresh <;> rfl

/-- Taking a code touches no other table, leaves no unused row under it, and finds what is stored. -/
theorem takeCode_spec {store spent : Store} {code : String} {now : Int} {found : Option AuthCode}
    (took : takeCode store code now = (found, spent)) :
    (spent.pools = store.pools ∧ spent.users = store.users) ∧
    (∀ row ∈ spent.authCodes, row.code = code → row.used = true) ∧
    ∀ issued, found = some issued → ∃ row ∈ store.authCodes, row.code = code ∧
      row.issued = issued ∧ row.used = false ∧ now ≤ row.expiresAt := by
  unfold takeCode at took
  split at took
  · rename_i missing
    cases took
    refine ⟨⟨rfl, rfl⟩, fun row member same => ?_, nofun⟩
    have other := List.find?_eq_none.mp missing row member
    exact absurd (by simpa using same) other
  · rename_i row here
    have marked : ∀ row ∈ store.authCodes.map (fun other : AuthCodeRow =>
        if other.code = code then { other with used := true } else other),
        row.code = code → row.used = true := by
      intro row member same
      obtain ⟨old, _, rfl⟩ := List.mem_map.mp member
      by_cases under : old.code = code
      · rw [if_pos under]
      · rw [if_neg under] at same
        exact absurd same under
    split at took
    · cases took
      exact ⟨⟨rfl, rfl⟩, marked, nofun⟩
    · rename_i live
      cases took
      refine ⟨⟨rfl, rfl⟩, marked, fun issued same => ?_⟩
      rw [not_or, Bool.not_eq_true, not_lt] at live
      have same' : row.code = code := by simpa using List.find?_some here
      exact ⟨row, List.mem_of_find?_eq_some here, same', Option.some.inj same, live.1, live.2⟩

/-- The verifier answers the challenge that is stored with the code. -/
def Verified (issued : AuthCode) (verifier : Option String) : Prop :=
  ∀ challenge, issued.codeChallenge = some challenge → ∃ given, verifier = some given ∧
    verifyPkce challenge (issued.codeChallengeMethod.getD "plain") given = true

theorem pkceSatisfied_iff {issued : AuthCode} {verifier : Option String} :
    pkceSatisfied issued verifier = true ↔ Verified issued verifier := by
  unfold pkceSatisfied Verified
  rw [Option.all_eq_true]
  refine forall₂_congr fun challenge _ => ?_
  rw [Option.any_eq_true]

/-- What the request has to agree on with the code. -/
structure Agrees (issued : AuthCode) (client : Client) (redirectUri : String)
    (verifier : Option String) : Prop where
  client : issued.clientId = client.clientId
  redirectUri : issued.redirectUri = redirectUri
  verifier : Verified issued verifier

variable {ctx : Ctx} {store after : Store} {client : Client} {code redirectUri : String}
  {verifier : Option String} {now : Int}

/-- **An exchange that returns tokens.** -/
theorem exchange_granted {tokens : TokenSet}
    (done : exchange store ctx client code redirectUri verifier now = .ok (.ok tokens, after)) :
    ∃ row ∈ store.authCodes, row.code = code ∧ row.used = false ∧ now ≤ row.expiresAt ∧
      Agrees row.issued client redirectUri verifier ∧
      ∃ pool user, findPool store client.poolId = some pool ∧
        userByUsername store pool.id row.issued.username = some user ∧ user.enabled = true ∧
        Carries tokens row.issued user := by
  unfold exchange at done
  split at done
  · cases done
  · rename_i issued spent took
    obtain ⟨⟨pools, users⟩, _, found⟩ := takeCode_spec took
    obtain ⟨row, member, same, rfl, unused, inTime⟩ := found issued rfl
    split at done
    · cases done
    · rename_i bound
      rw [not_or, not_not, not_not] at bound
      split at done
      · cases done
      · rename_i verified
        rw [Bool.not_eq_true', Bool.not_eq_false, pkceSatisfied_iff] at verified
        obtain ⟨pool, known, rest⟩ := bind_ok done
        split at rest
        · cases rest
        · rename_i user here
          split at rest
          · cases rest
          · rename_i enabled
            have issuedTokens : (issueTokens spent ctx pool client user _ now).1 = tokens :=
              Except.ok.inj (congrArg Prod.fst (Except.ok.inj rest))
            unfold getPool findPool at known
            rw [okOr_ok, pools] at known
            unfold userByUsername queryUsers at here
            rw [users] at here
            refine ⟨row, member, same, unused, inTime, ⟨bound.1, bound.2, verified⟩, pool, user,
              known, here, by simpa using enabled, ?_⟩
            rw [← issuedTokens]
            exact issueTokens_carries spent ctx pool client user row.issued _ now rfl rfl rfl

/-- **An exchange that commits consumes the code.** -/
theorem exchange_consumes {result : Except String TokenSet}
    (done : exchange store ctx client code redirectUri verifier now = .ok (result, after)) :
    ∀ row ∈ after.authCodes, row.code = code → row.used = true := by
  unfold exchange at done
  split at done
  · rename_i spent took
    cases done
    exact (takeCode_spec took).2.1
  · rename_i issued spent took
    have consumed := (takeCode_spec took).2.1
    split at done
    · cases done
      exact consumed
    · split at done
      · cases done
        exact consumed
      · obtain ⟨pool, _, rest⟩ := bind_ok done
        split at rest
        · cases rest
          exact consumed
        · split at rest
          · cases rest
            exact consumed
          · rename_i user _ _
            have same : (issueTokens spent ctx pool client user _ now).2 = after :=
              congrArg Prod.snd (Except.ok.inj rest)
            rw [← same, issueTokens_authCodes]
            exact consumed

/-- **An exchange that does not commit**: all is as it should be, but the pool of the client is
gone. -/
theorem exchange_failed {error : CogError}
    (done : exchange store ctx client code redirectUri verifier now = .error error) :
    findPool store client.poolId = none ∧ ∃ row ∈ store.authCodes, row.code = code ∧
      row.used = false ∧ now ≤ row.expiresAt ∧
      Agrees row.issued client redirectUri verifier := by
  unfold exchange at done
  split at done
  · cases done
  · rename_i issued spent took
    obtain ⟨⟨pools, _⟩, _, found⟩ := takeCode_spec took
    obtain ⟨row, member, same, rfl, unused, inTime⟩ := found issued rfl
    split at done
    · cases done
    · rename_i bound
      rw [not_or, not_not, not_not] at bound
      split at done
      · cases done
      · rename_i verified
        rw [Bool.not_eq_true', Bool.not_eq_false, pkceSatisfied_iff] at verified
        refine ⟨?_, row, member, same, unused, inTime, ⟨bound.1, bound.2, verified⟩⟩
        cases known : getPool spent client.poolId with
        | error error =>
          unfold getPool findPool at known
          rw [pools] at known
          unfold findPool
          cases here : store.pools.find? fun pool => pool.id == client.poolId with
          | none => rfl
          | some pool => rw [here] at known; cases known
        | ok pool =>
          simp only [known, bind, Except.bind] at done
          split at done
          · cases done
          · split at done <;> cases done

/-! ### Every run -/

/-- An attempt to exchange a code. -/
def Attempts (event : CognitoEvent) (client : Client) (code redirectUri : String)
    (verifier : Option String) : Prop :=
  event.input.tx = .exchange client code redirectUri verifier

/-- The attempt commits: it returns tokens, or a failure as a value. -/
def Commits (event : CognitoEvent) : Prop :=
  ∃ result, event.output = .ok (.exchanged result)

def Grants (event : CognitoEvent) (tokens : TokenSet) : Prop :=
  event.output = .ok (.exchanged (.ok tokens))

variable {event issue : CognitoEvent}

theorem attempt_taken (taken : event.Taken (perform ctx))
    (attempts : Attempts event client code redirectUri verifier) {result : Except String TokenSet}
    (answered : event.output = .ok (.exchanged result)) :
    exchange event.before ctx client code redirectUri verifier event.input.now =
      .ok (result, event.after) := by
  have done := taken_ok taken answered
  unfold transact at done
  rw [attempts] at done
  obtain ⟨value, made, same⟩ := answerWith_ok done
  cases same
  exact made

theorem attempt_failed (taken : event.Taken (perform ctx))
    (attempts : Attempts event client code redirectUri verifier) {error : CogError}
    (failed : event.output = .error error) :
    exchange event.before ctx client code redirectUri verifier event.input.now = .error error := by
  rw [Event.Taken, perform] at taken
  have form : transact ctx event.before event.input = answerWith .exchanged
      (exchange event.before ctx client code redirectUri verifier event.input.now) := by
    unfold transact
    rw [attempts]
  cases done : exchange event.before ctx client code redirectUri verifier event.input.now with
  | error other =>
    have refused : transact ctx event.before event.input = .error other := by
      rw [form, done]
      rfl
    rw [commit_error refused, failed] at taken
    cases congrArg Prod.fst taken
    rfl
  | ok pair =>
    have granted : transact ctx event.before event.input = .ok (.exchanged pair.1, pair.2) := by
      rw [form, done]
      rfl
    rw [commit_ok granted, failed] at taken
    cases congrArg Prod.fst taken

/-- An event that issues a code: the key is the next value of the stream. -/
theorem issue_taken {poolId key : String} {issued : AuthCode} (taken : issue.Taken (perform ctx))
    (creates : issue.input.tx = .createCode poolId issued)
    (answered : issue.output = .ok (.created key)) :
    key = External.uuid issue.before.drawn ∧
      issue.after = (createCode issue.before poolId issued issue.input.now).2 := by
  have done := taken_ok taken answered
  unfold transact at done
  rw [creates] at done
  obtain ⟨response, after⟩ := Prod.mk.inj (Except.ok.inj done)
  exact ⟨(Response.created.inj response).symm, after.symm⟩

/-- Every code of a reachable store has a key that was drawn. -/
theorem code_drawn {history : List CognitoEvent}
    (run : Run (perform ctx) Store.empty history store) :
    ∀ row ∈ store.authCodes, DrawnUuid 0 store.drawn row.code := by
  intro row member
  rcases (run_grows run).authCodes row member with ⟨_, old, _⟩ | fresh
  · cases old
  · exact fresh

/-- **A code that was consumed is never granted again.** -/
theorem consumed_code (laws : UuidLaws ‹External›) {between : List CognitoEvent} {draw : Nat}
    {start : Store} (run : Run (perform ctx) start between event.before)
    (taken : event.Taken (perform ctx)) (early : draw < start.drawn)
    (used : ∀ row ∈ start.authCodes, row.code = External.uuid draw → row.used = true)
    (attempts : Attempts event client (External.uuid draw) redirectUri verifier)
    (tokens : TokenSet) : ¬ Grants event tokens := by
  intro grants
  obtain ⟨row, member, same, unused, _⟩ := exchange_granted (attempt_taken taken attempts grants)
  have still := (run_grows run).code_stable laws early (fun row => row.used = true)
    (fun _ _ same old => same.used old) used row member same
  rw [unused] at still
  cases still

/-- What every later state has under the key of the code. -/
theorem issued_code (laws : UuidLaws ‹External›) {past between : List CognitoEvent}
    {poolId key : String} {issued : AuthCode}
    (runPast : Run (perform ctx) Store.empty past issue.before)
    (takenIssue : issue.Taken (perform ctx)) (creates : issue.input.tx = .createCode poolId issued)
    (answered : issue.output = .ok (.created key))
    (run : Run (perform ctx) issue.after between store) :
    ∀ row ∈ store.authCodes, row.code = key →
      row.issued = issued ∧ row.expiresAt = issue.input.now + codeTtl := by
  obtain ⟨rfl, after⟩ := issue_taken takenIssue creates answered
  have early : issue.before.drawn < issue.after.drawn := by
    rw [after]
    exact Nat.lt_succ_self _
  refine (run_grows run).code_stable laws early _ (fun old row same holds => ?_)
    fun row member same => ?_
  · exact ⟨same.issued ▸ holds.1, same.expiresAt ▸ holds.2⟩
  · rw [after] at member
    rcases List.mem_append.mp member with old | new
    · obtain ⟨draw, _, most, drawn⟩ := code_drawn runPast row old
      have equal := laws.fresh (drawn.symm.trans same)
      omega
    · rw [List.mem_singleton.mp new]
      exact ⟨rfl, rfl⟩

/-- **An authorization code is bound, and of a single use.** In every run, for every code that was
issued: no exchange of it was granted before; one that is granted is made with the client, the
redirect URI and the verifier of the code, at most 300 s after the issue, for a user that exists and
is enabled, and its tokens carry what is stored with the code; one that does not commit was rejected
for a pool that is gone, and for nothing else; and after one that commits none is granted. -/
theorem code_bound (laws : UuidLaws ‹External›) {past rest : List CognitoEvent}
    (served : CognitoRun ctx (past ++ issue :: rest) store) {poolId key : String}
    {issued : AuthCode} (creates : issue.input.tx = .createCode poolId issued)
    (answered : issue.output = .ok (.created key)) :
    (∀ event ∈ past, ∀ client redirectUri verifier tokens,
      Attempts event client key redirectUri verifier → ¬ Grants event tokens) ∧
    (∀ event ∈ rest, ∀ client redirectUri verifier,
      Attempts event client key redirectUri verifier →
      (∀ tokens, Grants event tokens → Agrees issued client redirectUri verifier ∧
        event.input.now ≤ issue.input.now + 300000 ∧
        ∃ pool user, findPool event.before client.poolId = some pool ∧
          userByUsername event.before pool.id issued.username = some user ∧ user.enabled = true ∧
          Carries tokens issued user) ∧
      (Commits event ∨ Agrees issued client redirectUri verifier ∧
        event.input.now ≤ issue.input.now + 300000 ∧
        findPool event.before client.poolId = none)) ∧
    ∀ first one between two last, rest = first ++ one :: (between ++ two :: last) →
      ∀ client redirectUri verifier, Attempts one client key redirectUri verifier → Commits one →
      ∀ client redirectUri verifier, Attempts two client key redirectUri verifier →
      ∀ tokens, ¬ Grants two tokens := by
  obtain ⟨runPast, takenIssue, runRest⟩ := served.run.around
  have bound : ∀ {between : List CognitoEvent} {store : Store},
      Run (perform ctx) issue.after between store → ∀ row ∈ store.authCodes, row.code = key →
        row.issued = issued ∧ row.expiresAt = issue.input.now + codeTtl :=
    issued_code laws runPast takenIssue creates answered
  obtain ⟨drawn, after⟩ := issue_taken takenIssue creates answered
  refine ⟨?_, ?_, ?_⟩
  · intro event member client redirectUri verifier tokens attempts grants
    obtain ⟨first, last, rfl⟩ := List.append_of_mem member
    obtain ⟨runFirst, taken, runLast⟩ := runPast.around
    obtain ⟨row, memberRow, same, _⟩ := exchange_granted (attempt_taken taken attempts grants)
    obtain ⟨draw, _, most, key⟩ := code_drawn runFirst row memberRow
    have equal := laws.fresh (key.symm.trans (same.trans drawn))
    have later := ((perform_grows taken).trans (run_grows runLast)).drawn
    omega
  · intro event member client redirectUri verifier attempts
    obtain ⟨first, last, rfl⟩ := List.append_of_mem member
    obtain ⟨runFirst, taken, _⟩ := runRest.around
    refine ⟨fun tokens grants => ?_, ?_⟩
    · obtain ⟨row, memberRow, same, _, inTime, agrees, pool, user, known, here, enabled, carries⟩ :=
        exchange_granted (attempt_taken taken attempts grants)
      obtain ⟨rfl, expires⟩ := bound runFirst row memberRow same
      rw [expires] at inTime
      exact ⟨agrees, inTime, pool, user, known, here, enabled, carries⟩
    · cases output : event.output with
      | error error =>
        obtain ⟨missing, row, memberRow, same, _, inTime, agrees⟩ :=
          exchange_failed (attempt_failed taken attempts output)
        obtain ⟨rfl, expires⟩ := bound runFirst row memberRow same
        rw [expires] at inTime
        exact Or.inr ⟨agrees, inTime, missing⟩
      | ok response =>
        have done := taken_ok taken output
        unfold transact at done
        rw [attempts] at done
        obtain ⟨result, _, answer⟩ := answerWith_ok done
        exact Or.inl ⟨result, by rw [output, ← answer]⟩
  · rintro first one between two last rfl client redirectUri verifier attemptsOne
      ⟨result, commits⟩ client' redirectUri' verifier' attemptsTwo tokens
    obtain ⟨runFirst, takenOne, runAfter⟩ := runRest.around
    obtain ⟨runBetween, takenTwo, _⟩ := runAfter.around
    have used := exchange_consumes (attempt_taken takenOne attemptsOne commits)
    rw [drawn] at used attemptsTwo
    refine consumed_code laws runBetween takenTwo ?_ used attemptsTwo tokens
    have afterIssue : issue.before.drawn < issue.after.drawn := by
      rw [after]
      exact Nat.lt_succ_self _
    have later := ((run_grows runFirst).trans (perform_grows takenOne)).drawn
    omega

end External

/-! ### Sample codes -/

/-- What the sample codes stand for: no nonce, and a scope with a tab. -/
def sampleCode : AuthCode where
  clientId := sampleClientId
  username := "dev"
  redirectUri := "http://localhost/callback"
  scope := "openid\tprofile"
  codeChallenge := some "iMnq5o6zALKXGivsnlom_0F5_WYda32GHkxlV7mq7hQ"
  codeChallengeMethod := some "S256"
  nonce := none
  authTime := 0

section Sample

attribute [local instance] sampleExternal Crypto.sample

/-- A pool, a client and a user with an attribute `nonce`. -/
def sampleUsers : List Tx :=
  samplePool ++ sampleUser [("nonce", "other")]

/-- **Tokens carry more than what is stored with the code**: the id token has a nonce although none
is stored, and the scope is not that of the code letter by letter. -/
theorem tokens_carry_more : ∃ tokens after,
    exchange (sampleStore (sampleUsers ++ [.createCode samplePoolId sampleCode])) sampleCtx
      sampleClient (External.uuid 7) sampleCode.redirectUri (some "verifier") 0 =
        .ok (.ok tokens, after) ∧
    sampleCode.nonce = none ∧
    ((tokens.idToken.bind Crypto.verify).bind fun claims => claimText claims "nonce") =
      some "other" ∧
    ((Crypto.verify tokens.accessToken).bind fun claims => claimText claims "scope") ≠
      some sampleCode.scope :=
  ⟨_, _, rfl, rfl, by decide, by decide⟩

/-- The exchange of the sample code. -/
def sampleExchange : Tx :=
  .exchange sampleClient (External.uuid 7) sampleCode.redirectUri (some "verifier")

/-- The second exchange of the sample code. -/
def sampleSecond : CognitoEvent :=
  Event.of (perform sampleCtx)
    (sampleStore (sampleUsers ++ [.createCode samplePoolId sampleCode, sampleExchange]))
    { now := 0, tx := sampleExchange }

/-- The second exchange returns no tokens. -/
theorem code_bound_sample : ¬ ∃ tokens, Grants sampleSecond tokens := by
  rintro ⟨tokens, grants⟩
  have laws : UuidLaws sampleExternal := ⟨sample_laws.fresh, sample_laws.noBar⟩
  have bound := code_bound laws
    (CognitoRun.of_cut sampleCtx (sampleInputs sampleUsers)
      { now := 0, tx := .createCode samplePoolId sampleCode }
      (sampleInputs [sampleExchange, sampleExchange]) (by decide)) rfl
    (rfl : _ = Except.ok (Response.created (External.uuid 7)))
  exact bound.2.2 [] _ [] sampleSecond [] rfl _ _ _ rfl ⟨_, rfl⟩ _ _ _ rfl tokens grants

end Sample

end CloudTwin.Cognito
