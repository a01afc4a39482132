/-
**Lifetimes of tokens and sessions** (`ttl`, `issue_tokens`, `create_challenge`, `client_data_from`).

The validities of a client are stored as they come in a request. A lifetime is a validity times its
unit, in 64 bits, and an expiry the clock and a lifetime.

* `clientDataFrom` — what a request stores; `ttlI64`, `addI64`, `mulI64` — lifetimes in 64 bits.
* `Sound` — no overflow, and every expiry after the time of issue.
* `Fits` — the validities are positive and their lifetimes fit.
* `lifetimes_sound` — the one if and only if the other; then tokens and sessions expire after their
  issue.
* `negative_validity_accepted` — a token that is issued expired, and a lifetime that overflows.
-/

import CloudTwin.Cognito.Codes

namespace CloudTwin.Cognito

open Lib Lib.Text

set_option linter.unusedSectionVars false

/-! ### Requests for clients -/

/-- `CLIENT_FIELDS`. -/
def clientFields : List String :=
  ["RefreshTokenValidity", "AccessTokenValidity", "IdTokenValidity", "TokenValidityUnits",
    "ReadAttributes", "WriteAttributes", "ExplicitAuthFlows", "SupportedIdentityProviders",
    "CallbackURLs", "LogoutURLs", "DefaultRedirectURI", "AllowedOAuthFlows", "AllowedOAuthScopes",
    "AllowedOAuthFlowsUserPoolClient", "AnalyticsConfiguration", "PreventUserExistenceErrors",
    "EnableTokenRevocation", "EnablePropagateAdditionalUserContextData", "AuthSessionValidity"]

/-- A field that is given and not null. -/
def givenField (req : Json) (field : String) : Option (String × Json) :=
  match req.get field with
  | none => none
  | some .null => none
  | some value => some (field, value)

/-- `client_data_from`. -/
def clientDataFrom (req : Json) : CResult Json := do
  let data := Json.obj (clientFields.filterMap (givenField req))
  let callbacks := strList (data.get "CallbackURLs")
  rejectIf (((data.get "DefaultRedirectURI").bind Json.asStr).any fun url => !(callbacks.contains url))
    (err "InvalidParameterException" "DefaultRedirectURI should be one of the CallbackURLs.")
  if ((data.get "AllowedOAuthFlowsUserPoolClient").bind Json.asBool).getD false then
    let flows := match data.get "AllowedOAuthFlows" with
      | some (.arr flows) => flows
      | _ => []
    rejectIf flows.isEmpty (err "InvalidOAuthFlowException"
      "AllowedOAuthFlows are required when AllowedOAuthFlowsUserPoolClient is true.")
    rejectIf ((flows.any fun flow => flow.asStr == some "code" || flow.asStr == some "implicit") ∧
        callbacks.isEmpty)
      (err "InvalidParameterException"
        "CallbackURLs are required when the code or implicit grant is enabled.")
  return data

/-! ### Arithmetic of 64 bits -/

def InI64 (value : Int) : Prop := -(2 ^ 63) ≤ value ∧ value < 2 ^ 63

instance (value : Int) : Decidable (InI64 value) := inferInstanceAs (Decidable (_ ∧ _))

/-- A product: `none` is the overflow. -/
def mulI64 (first second : Int) : Option Int :=
  if InI64 (first * second) then some (first * second) else none

/-- A sum: `none` is the overflow. -/
def addI64 (first second : Int) : Option Int :=
  if InI64 (first + second) then some (first + second) else none

/-- `value as i64` of a `u64`. -/
def castI64 (value : Nat) : Int :=
  if value < 2 ^ 63 then value else value - 2 ^ 64

/-- The seconds of a unit. -/
def unitSeconds (unit : String) : Int :=
  match unit with
  | "seconds" => 1
  | "minutes" => 60
  | "hours" => 3600
  | _ => 86400

/-- The validity of a token kind and its unit, if the client sets it. -/
def Client.validity (client : Client) (kind : TokenKind) : Option (Int × Int) :=
  let fields := match kind with
    | .id => ("IdTokenValidity", "IdToken", "hours")
    | .access => ("AccessTokenValidity", "AccessToken", "hours")
    | .refresh => ("RefreshTokenValidity", "RefreshToken", "days")
  ((client.data.get fields.1).bind Json.asI64).map fun value =>
    (value, unitSeconds ((((client.data.get "TokenValidityUnits").bind (·.get fields.2.1)).bind
      Json.asStr).getD fields.2.2))

/-- The lifetime that is configured. -/
def Ctx.configured (ctx : Ctx) : TokenKind → Option Nat
  | .id => ctx.idTokenTtlSeconds
  | .access => ctx.accessTokenTtlSeconds
  | .refresh => ctx.refreshTokenTtlSeconds

def defaultTtl : TokenKind → Int
  | .id => 3600
  | .access => 3600
  | .refresh => 30 * 86400

/-- `ttl`, in 64 bits. -/
def Client.ttlI64 (client : Client) (kind : TokenKind) (ctx : Ctx) : Option Int :=
  match client.validity kind with
  | some (value, unit) => mulI64 value unit
  | none => some (((ctx.configured kind).map castI64).getD (defaultTtl kind))

/-! ### What is promised, and when -/

/-- **Sound lifetimes** at a reading of the clock: nothing overflows, and every expiry comes after the
time of issue. The refresh token and the session add theirs to the clock as floats. -/
structure Sound (client : Client) (ctx : Ctx) (now : Int) : Prop where
  access : ∃ ttl exp, client.ttlI64 .access ctx = some ttl ∧ addI64 (now / 1000) ttl = some exp ∧
    now / 1000 < exp
  id : ∃ ttl exp, client.ttlI64 .id ctx = some ttl ∧ addI64 (now / 1000) ttl = some exp ∧
    now / 1000 < exp
  refresh : ∃ ttl, client.ttlI64 .refresh ctx = some ttl ∧ now < now + ttl * 1000
  session : ∃ seconds, mulI64 client.authSessionMinutes 60 = some seconds ∧ now < now + seconds * 1000

/-- A lifetime that is positive and fits in 64 bits, with a time added to it. -/
def FitsKind (client : Client) (ctx : Ctx) (kind : TokenKind) (seconds : Int) : Prop :=
  match client.validity kind with
  | some (value, unit) => 0 < value ∧ value * unit + seconds < 2 ^ 63
  | none => ∀ configured, ctx.configured kind = some configured →
    0 < configured ∧ (configured : Int) + seconds < 2 ^ 63

/-- **Validities that fit.** -/
structure Fits (client : Client) (ctx : Ctx) (now : Int) : Prop where
  access : FitsKind client ctx .access (now / 1000)
  id : FitsKind client ctx .id (now / 1000)
  refresh : FitsKind client ctx .refresh 0
  session : 0 < client.authSessionMinutes ∧ client.authSessionMinutes * 60 < 2 ^ 63

theorem unitSeconds_pos (unit : String) : 0 < unitSeconds unit := by
  unfold unitSeconds
  split <;> decide

theorem validity_unit {client : Client} {kind : TokenKind} {value unit : Int}
    (set : client.validity kind = some (value, unit)) : 0 < unit := by
  obtain ⟨_, _, same⟩ := Option.map_eq_some_iff.mp set
  rw [← (Prod.mk.inj same).2]
  exact unitSeconds_pos _

variable {client : Client} {ctx : Ctx} {kind : TokenKind} {seconds : Int}

theorem ttlI64_small {ttl : Int} (words : ∀ configured, ctx.configured kind = some configured →
    configured < 2 ^ 64) (found : client.ttlI64 kind ctx = some ttl) : InI64 ttl := by
  unfold Client.ttlI64 at found
  split at found
  · unfold mulI64 at found
    rw [Option.ite_none_right_eq_some] at found
    obtain ⟨inside, same⟩ := found
    rw [← Option.some.inj same]
    exact inside
  · have same := Option.some.inj found
    cases given : ctx.configured kind with
    | none =>
      rw [given] at same
      rw [← same]
      cases kind <;> decide
    | some configured =>
      have word := words configured given
      rw [given] at same
      have cast : castI64 configured = ttl := same
      unfold castI64 at cast
      unfold InI64
      split at cast <;> omega

/-- **A kind of token**: its lifetime is positive and can be added to the time if and only if it fits. -/
theorem fitsKind_iff (words : ∀ configured, ctx.configured kind = some configured →
    configured < 2 ^ 64) (past : 0 ≤ seconds) (clock : seconds < 2 ^ 40) :
    (∃ ttl, client.ttlI64 kind ctx = some ttl ∧ 0 < ttl ∧ InI64 (seconds + ttl)) ↔
      FitsKind client ctx kind seconds := by
  unfold Client.ttlI64 FitsKind
  cases set : client.validity kind with
  | some pair =>
    obtain ⟨value, unit⟩ := pair
    have positive := validity_unit set
    show (∃ ttl, mulI64 value unit = some ttl ∧ _) ↔ _
    unfold mulI64
    constructor
    · rintro ⟨ttl, product, later, fits⟩
      rw [Option.ite_none_right_eq_some] at product
      obtain ⟨_, same⟩ := product
      cases same
      refine ⟨(mul_pos_iff_of_pos_right positive).mp later, ?_⟩
      have := fits.2
      omega
    · rintro ⟨later, fits⟩
      have product : 0 < value * unit := Int.mul_pos later positive
      have inside : InI64 (value * unit) := ⟨by omega, by omega⟩
      refine ⟨value * unit, by rw [if_pos inside], product, ?_, ?_⟩
      · omega
      · omega
  | none =>
    show (∃ ttl, some _ = some ttl ∧ _) ↔ _
    cases given : ctx.configured kind with
    | none =>
      refine ⟨fun _ => nofun, fun _ => ⟨_, rfl, ?_⟩⟩
      have bounds : 0 < defaultTtl kind ∧ defaultTtl kind < 2 ^ 30 := by cases kind <;> decide
      show 0 < defaultTtl kind ∧ InI64 (seconds + defaultTtl kind)
      exact ⟨bounds.1, by omega, by omega⟩
    | some configured =>
      have word := words configured given
      show (∃ ttl, some (castI64 configured) = some ttl ∧ _) ↔ _
      unfold castI64
      constructor
      · rintro ⟨ttl, same, later, fits⟩ other found
        cases same
        cases found
        have := fits.2
        split at later <;> rename_i small
        · rw [if_pos small] at this
          omega
        · omega
      · intro fits
        obtain ⟨later, small⟩ := fits configured rfl
        have half : configured < 2 ^ 63 := by omega
        rw [if_pos half]
        exact ⟨_, rfl, by omega, by omega, by omega⟩

theorem sound_iff {now : Int} (words : ∀ kind configured, ctx.configured kind = some configured →
    configured < 2 ^ 64) (past : 0 ≤ now) (clock : now / 1000 < 2 ^ 40) :
    Sound client ctx now ↔ Fits client ctx now := by
  have started : 0 ≤ now / 1000 := Int.ediv_nonneg past (by decide)
  have added : ∀ kind, (∃ ttl exp, client.ttlI64 kind ctx = some ttl ∧
      addI64 (now / 1000) ttl = some exp ∧ now / 1000 < exp) ↔
      FitsKind client ctx kind (now / 1000) := by
    intro kind
    rw [← fitsKind_iff (words kind) started clock]
    unfold addI64
    constructor
    · rintro ⟨ttl, exp, found, sum, later⟩
      rw [Option.ite_none_right_eq_some] at sum
      obtain ⟨inside, same⟩ := sum
      cases same
      exact ⟨ttl, found, by omega, inside⟩
    · rintro ⟨ttl, found, later, inside⟩
      exact ⟨ttl, _, found, if_pos inside, by omega⟩
  have refreshed : (∃ ttl, client.ttlI64 .refresh ctx = some ttl ∧ now < now + ttl * 1000) ↔
      FitsKind client ctx .refresh 0 := by
    rw [← fitsKind_iff (words .refresh) (le_refl 0) (by decide)]
    constructor
    · rintro ⟨ttl, found, later⟩
      exact ⟨ttl, found, by omega, by rw [Int.zero_add]; exact ttlI64_small (words .refresh) found⟩
    · rintro ⟨ttl, found, later, _⟩
      exact ⟨ttl, found, by omega⟩
  have minutes : (∃ seconds, mulI64 client.authSessionMinutes 60 = some seconds ∧
      now < now + seconds * 1000) ↔
      0 < client.authSessionMinutes ∧ client.authSessionMinutes * 60 < 2 ^ 63 := by
    unfold mulI64
    constructor
    · rintro ⟨seconds, product, later⟩
      rw [Option.ite_none_right_eq_some] at product
      obtain ⟨inside, same⟩ := product
      cases same
      exact ⟨by omega, inside.2⟩
    · rintro ⟨later, inside⟩
      exact ⟨_, if_pos ⟨by omega, inside⟩, by omega⟩
  exact ⟨fun sound => ⟨(added _).mp sound.access, (added _).mp sound.id, refreshed.mp sound.refresh,
    minutes.mp sound.session⟩, fun fits => ⟨(added _).mpr fits.access, (added _).mpr fits.id,
    refreshed.mpr fits.refresh, minutes.mpr fits.session⟩⟩

/-! ### What is issued -/

theorem ttl_validity (client : Client) (kind : TokenKind) (ctx : Ctx) :
    client.ttl kind ctx = match client.validity kind with
      | some (value, unit) => value * unit
      | none => ((ctx.configured kind).map Nat.cast).getD (defaultTtl kind) := by
  cases kind with
  | id =>
    unfold Client.ttl Client.ttlOf Client.validity
    dsimp only
    cases (client.data.get "IdTokenValidity").bind Json.asI64 with
    | some value => rfl
    | none =>
      unfold Ctx.configured
      cases ctx.idTokenTtlSeconds with
      | some seconds => rfl
      | none => rfl
  | access =>
    unfold Client.ttl Client.ttlOf Client.validity
    dsimp only
    cases (client.data.get "AccessTokenValidity").bind Json.asI64 with
    | some value => rfl
    | none =>
      unfold Ctx.configured
      cases ctx.accessTokenTtlSeconds with
      | some seconds => rfl
      | none => rfl
  | refresh =>
    unfold Client.ttl Client.ttlOf Client.validity
    dsimp only
    cases (client.data.get "RefreshTokenValidity").bind Json.asI64 with
    | some value => rfl
    | none =>
      unfold Ctx.configured
      cases ctx.refreshTokenTtlSeconds with
      | some seconds => rfl
      | none => rfl

/-- Where nothing overflows, the lifetime in 64 bits is the lifetime. -/
theorem ttl_eq {ttl : Int} (fits : FitsKind client ctx kind seconds) (past : 0 ≤ seconds)
    (found : client.ttlI64 kind ctx = some ttl) : client.ttl kind ctx = ttl := by
  unfold Client.ttlI64 at found
  unfold FitsKind at fits
  rw [ttl_validity]
  cases set : client.validity kind with
  | some pair =>
    obtain ⟨value, unit⟩ := pair
    rw [set] at found
    have product : mulI64 value unit = some ttl := found
    unfold mulI64 at product
    rw [Option.ite_none_right_eq_some] at product
    exact Option.some.inj product.2
  | none =>
    rw [set] at found fits
    have same := Option.some.inj found
    cases given : ctx.configured kind with
    | none =>
      rw [given] at same
      exact same
    | some configured =>
      have half := (fits configured given).2
      rw [given] at same
      have cast : castI64 configured = ttl := same
      rw [castI64, if_pos (by omega)] at cast
      exact cast

section External

variable [External] [Crypto]

section Claims

variable (ctx : Ctx) (pool : Pool) (client : Client) (user : User) (opts : IssueOpts)
  (origin eventId jti : String) (seconds : Int)

theorem accessClaims_times :
    (accessClaims ctx pool client user opts origin eventId jti seconds)["exp"]? =
        some (.num (seconds + client.ttl .access ctx)) ∧
      (accessClaims ctx pool client user opts origin eventId jti seconds)["iat"]? =
        some (.num seconds) := by
  simp only [accessClaims, List.foldl_cons, List.foldl_nil, getElem_insert, String.reduceEq,
    if_true, if_false, and_self]

theorem idClaims_times :
    (idClaims ctx pool client user opts origin eventId jti seconds)["exp"]? =
        some (.num (seconds + client.ttl .id ctx)) ∧
      (idClaims ctx pool client user opts origin eventId jti seconds)["iat"]? =
        some (.num seconds) := by
  unfold idClaims
  cases opts.nonce with
  | none =>
    simp only [List.foldl_cons, List.foldl_nil, getElem_insert, String.reduceEq, if_true, if_false,
      and_self]
  | some nonce =>
    simp only [List.foldl_cons, List.foldl_nil, getElem_insert, String.reduceEq, if_true, if_false,
      and_self]

end Claims

/-- **Issued in time**: every token and every session expires after the time of issue, and the answer
states the lifetime of the access token. -/
structure Issued (client : Client) (ctx : Ctx) (now : Int) (store : Store) (pool : Pool) (user : User)
    (opts : IssueOpts) : Prop where
  access : ∃ claims exp, (issueTokens store ctx pool client user opts now).1.accessToken =
      Crypto.sign claims ∧ claims["exp"]? = some (.num exp) ∧
      claims["iat"]? = some (.num (now / 1000)) ∧ now / 1000 < exp ∧
      (issueTokens store ctx pool client user opts now).1.expiresIn = exp - now / 1000
  id : ∀ token, (issueTokens store ctx pool client user opts now).1.idToken = some token →
    ∃ claims exp, token = Crypto.sign claims ∧ claims["exp"]? = some (.num exp) ∧
      claims["iat"]? = some (.num (now / 1000)) ∧ now / 1000 < exp
  refresh : ∀ row ∈ (issueTokens store ctx pool client user opts now).2.refreshTokens,
    row ∈ store.refreshTokens ∨ now < row.expiresAt
  session : ∀ challenge, ∀ row ∈ (createChallenge store client user challenge now).2.challenges,
    row ∈ store.challenges ∨ now < row.expiresAt

theorem originOf_refreshTokens (store : Store) (pool : Pool) (client : Client) (user : User)
    (given : Option String) :
    (originOf store pool client user given).2.refreshTokens = store.refreshTokens := by
  cases given <;> rfl

theorem issued_of_sound {now : Int} (sound : Sound client ctx now) (fits : Fits client ctx now)
    (past : 0 ≤ now) (store : Store) (pool : Pool) (user : User) (opts : IssueOpts) :
    Issued client ctx now store pool user opts where
  access := by
    obtain ⟨ttl, exp, found, sum, later⟩ := sound.access
    have same := ttl_eq fits.access (Int.ediv_nonneg past (by decide)) found
    unfold addI64 at sum
    rw [Option.ite_none_right_eq_some] at sum
    obtain ⟨_, same'⟩ := sum
    cases same'
    refine ⟨_, now / 1000 + ttl, rfl, ?_, (accessClaims_times ctx pool client user opts _ _ _ _).2, later,
      ?_⟩
    · rw [← same]
      exact (accessClaims_times ctx pool client user opts _ _ _ _).1
    · show client.ttl .access ctx = _
      omega
  id := by
    intro token given
    obtain ⟨ttl, exp, found, sum, later⟩ := sound.id
    have same := ttl_eq fits.id (Int.ediv_nonneg past (by decide)) found
    unfold addI64 at sum
    rw [Option.ite_none_right_eq_some] at sum
    obtain ⟨_, same'⟩ := sum
    cases same'
    unfold issueTokens at given
    cases wanted : opts.idToken with
    | false => simp [wanted] at given
    | true =>
      simp only [wanted, if_true, Option.map_some, Option.some.injEq] at given
      refine ⟨_, now / 1000 + ttl, given.symm, ?_, (idClaims_times ctx pool client user opts _ _ _ _).2,
        later⟩
      rw [← same]
      exact (idClaims_times ctx pool client user opts _ _ _ _).1
  refresh := by
    intro row member
    obtain ⟨ttl, found, later⟩ := sound.refresh
    have same := ttl_eq fits.refresh (le_refl 0) found
    unfold issueTokens refreshTokenOf at member
    dsimp only at member
    have kept := originOf_refreshTokens store pool client user opts.originJti
    split at member
    · rcases List.mem_append.mp member with old | new
      · rw [kept] at old
        exact .inl old
      · rw [List.mem_singleton.mp new]
        refine .inr ?_
        show now < now + client.ttl .refresh ctx * 1000
        rw [same]
        exact later
    · rw [kept] at member
      exact .inl member
  session := by
    intro challenge row member
    obtain ⟨seconds, product, later⟩ := sound.session
    unfold mulI64 at product
    rw [Option.ite_none_right_eq_some] at product
    obtain ⟨_, same⟩ := product
    cases same
    rcases List.mem_append.mp member with old | new
    · exact .inl old
    · rw [List.mem_singleton.mp new]
      exact .inr later

/-- **Lifetimes are sound for the validities that fit**, and for no others, whatever a client stores;
then everything that is issued expires after its issue. -/
theorem lifetimes_sound {client : Client} {ctx : Ctx} (words : ∀ kind configured, ctx.configured kind = some configured →
      configured < 2 ^ 64) {now : Int} (past : 0 ≤ now) (clock : now / 1000 < 2 ^ 40) :
    (Sound client ctx now ↔ Fits client ctx now) ∧
      (Fits client ctx now → ∀ store pool user opts, Issued client ctx now store pool user opts) := by
  have both := @sound_iff client ctx now words past clock
  exact ⟨both, fun fits store pool user opts =>
    issued_of_sound (both.mpr fits) fits past store pool user opts⟩

end External

/-! ### Samples -/

/-- A request for a client with a validity of its access tokens, in hours. -/
def validityRequest (hours : Int) : Json :=
  .obj [("ClientName", .str "web"), ("AccessTokenValidity", .num hours)]

def validityClient (hours : Int) : Client where
  clientId := "client"
  poolId := "pool"
  name := "web"
  secret := none
  data := .obj [("AccessTokenValidity", .num hours)]

def plainCtx : Ctx where
  issuerBase := "http://localhost"
  idTokenTtlSeconds := none
  accessTokenTtlSeconds := none
  refreshTokenTtlSeconds := none

theorem validityClient_validity (hours : Int) (small : -(2 ^ 63) ≤ hours ∧ hours < 2 ^ 63)
    (kind : TokenKind) : (validityClient hours).validity kind =
      match kind with
      | .access => some (hours, 3600)
      | _ => none := by
  have given : (Json.num hours).asI64 = some hours := if_pos small
  cases kind with
  | access =>
    show ((some (Json.num hours)).bind Json.asI64).map _ = _
    rw [Option.bind_some, given]
    rfl
  | id => rfl
  | refresh => rfl

theorem validityClient_fits : Fits (validityClient 1) plainCtx 1700000000000 where
  access := by
    unfold FitsKind
    rw [validityClient_validity 1 (by decide)]
    exact ⟨by decide, by decide⟩
  id := by
    unfold FitsKind
    rw [validityClient_validity 1 (by decide)]
    exact nofun
  refresh := by
    unfold FitsKind
    rw [validityClient_validity 1 (by decide)]
    exact nofun
  session := by
    show 0 < (3 : Int) ∧ (3 : Int) * 60 < 2 ^ 63
    decide

section Sample

attribute [local instance] External.sample Crypto.sample

theorem lifetimes_sound_sample :
    (Sound (validityClient 1) plainCtx 1700000000000 ↔
        Fits (validityClient 1) plainCtx 1700000000000) ∧
      Fits (validityClient 1) plainCtx 1700000000000 ∧
      (Fits (validityClient 1) plainCtx 1700000000000 → ∀ store pool user opts,
        Issued (validityClient 1) plainCtx 1700000000000 store pool user opts) := by
  have both := @lifetimes_sound External.sample Crypto.sample (validityClient 1) plainCtx
    (by intro kind configured wrong; cases kind <;> cases wrong) 1700000000000 (by decide) (by decide)
  exact ⟨both.1, validityClient_fits, both.2⟩

end Sample

/-- Accepted validities: an access token that is issued expired, and a lifetime that overflows. -/
theorem negative_validity_accepted :
    (clientDataFrom (validityRequest (-1)) = .ok (validityClient (-1)).data ∧
      ¬ Sound (validityClient (-1)) plainCtx 1700000000000) ∧
    clientDataFrom (validityRequest (2 ^ 60)) = .ok (validityClient (2 ^ 60)).data ∧
      (validityClient (2 ^ 60)).ttlI64 .access plainCtx = none := by
  refine ⟨⟨rfl, fun sound => ?_⟩, rfl, ?_⟩
  · obtain ⟨ttl, exp, found, sum, later⟩ := sound.access
    unfold Client.ttlI64 at found
    rw [validityClient_validity (-1) (by decide)] at found
    have negative : mulI64 (-1) 3600 = some ttl := found
    have value : ttl = -3600 := (Option.some.inj negative).symm
    rw [value] at sum
    have expired : exp = 1699996400 := (Option.some.inj sum).symm
    rw [expired] at later
    exact absurd later (by decide)
  · unfold Client.ttlI64
    rw [validityClient_validity (2 ^ 60) (by decide)]
    rfl

end CloudTwin.Cognito
