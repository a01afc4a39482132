/-
**EmailVerified email addresses.**

Whether an email address is verified is an attribute of the user, `email_verified`, like any other:
requests that give attributes can give it. A code is stored without the address it is sent to, so
it verifies the address that is stored when it is presented.

* `code_generated` — a stored code is the last of its kind that the run has generated for the user.
* `verified_taken` — the transactions after which an address is verified that was not before.
* `verification_origin` — in every run, the transaction by which a verified address became so.
* `verification_unearned` — an address that no administrator and no code has verified, and one that
  was verified with a code for another address.
-/

import CloudTwin.Cognito.Challenges
import CloudTwin.Cognito.Logins

namespace CloudTwin.Cognito

open Lib Lib.Text

set_option linter.unusedSectionVars false

/-! ### Addresses and codes -/

/-- The user has the email address. -/
def HasEmail (store : Store) (poolId username email : String) : Prop :=
  ∃ user ∈ store.users, user.Is poolId username ∧ user.attributes["email"]? = some email

instance (store : Store) (poolId username email : String) :
    Decidable (HasEmail store poolId username email) :=
  inferInstanceAs (Decidable (∃ user ∈ store.users, _))

/-- The user has the email address, and it counts as verified. -/
def EmailVerified (store : Store) (poolId username email : String) : Prop :=
  ∃ user ∈ store.users, user.Is poolId username ∧ user.attributes["email"]? = some email ∧
    user.attributes["email_verified"]? = some "true"

instance (store : Store) (poolId username email : String) :
    Decidable (EmailVerified store poolId username email) :=
  inferInstanceAs (Decidable (∃ user ∈ store.users, _))

/-- The primary key of `cognito_codes`. -/
def CodeRow.For (row : CodeRow) (poolId username kind : String) : Prop :=
  row.poolId = poolId ∧ row.username = username ∧ row.kind = kind

/-- The administrative transactions that verify an email address. -/
def Tx.verifies : Tx → Bool
  | .adminCreateUser .. => true
  | .adminUpdateUserAttributes .. => true
  | .adminConfirmSignUp .. => true
  | _ => false

/-- The attributes that a user gives. -/
def Tx.ownAttributes : Tx → List (String × String)
  | .signUp _ _ _ attributes => attributes
  | .respondToAuthChallenge _ _ _ _ attributes => attributes
  | _ => []

/-- The kind of verification code that is presented, the client, the login and the code. -/
def Tx.presents : Tx → Option (String × String × String × String)
  | .confirmSignUp clientId username code => some ("signup", clientId, username, code)
  | .confirmForgotPassword clientId username code _ => some ("reset", clientId, username, code)
  | _ => none

section External

variable [External] [Crypto]

/-- **The event generates the verification code**: it ends by storing the row. -/
def Generates (event : CognitoEvent) (row : CodeRow) : Prop :=
  ∃ store user kind, event.input.tx.sends = some kind ∧ store.codes = event.before.codes ∧
    event.before.drawn ≤ store.drawn ∧ event.after = (setCode store user kind event.input.now).2 ∧
    row = { poolId := user.poolId, username := user.username, kind
            code := (setCode store user kind event.input.now).1
            expiresAt := event.input.now + 86400 * 1000 }

/-- The user presents the code that is stored, before it expires. -/
def Presents (event : CognitoEvent) (poolId username : String) (row : CodeRow) : Prop :=
  ∃ kind clientId login code pool user,
    event.input.tx.presents = some (kind, clientId, login, code) ∧
    withClientUser event.before clientId login = .ok (pool, user) ∧ user.Is poolId username ∧
    row ∈ event.before.codes ∧ row.For poolId username kind ∧ row.code = trim code ∧
    event.input.now ≤ row.expiresAt

/-- **The verification is earned**: the user presents the latest code of its kind, and the code was
generated while the email address was this one, or was set to it later. -/
def Earned (past : List CognitoEvent) (event : CognitoEvent) (poolId username email : String) :
    Prop :=
  ∃ row older generation newer, past = older ++ generation :: newer ∧
    Presents event poolId username row ∧ Generates generation row ∧
    (∀ later ∈ newer, ∀ other, Generates later other →
      ¬ other.For poolId username row.kind) ∧
    (HasEmail generation.after poolId username email ∨
      ∃ change ∈ newer, ¬ HasEmail change.before poolId username email ∧
        HasEmail change.after poolId username email)

/-! ### Codes that are stored -/

theorem setCode_codes {store : Store} {user : User} {kind : String} {now : Int} :
    ∀ row ∈ (setCode store user kind now).2.codes,
      row = { poolId := user.poolId, username := user.username, kind
              code := (setCode store user kind now).1, expiresAt := now + 86400 * 1000 } ∨
      (row ∈ store.codes ∧ ¬ row.For user.poolId user.username kind) := by
  intro row member
  rcases List.mem_append.mp member with old | new
  · obtain ⟨stored, other⟩ := List.mem_filter.mp old
    refine Or.inr ⟨stored, fun same => ?_⟩
    simp [same.1, same.2.1, same.2.2] at other
  · exact Or.inl (List.mem_singleton.mp new)

theorem Generates.of_setCode {event : CognitoEvent} {store : Store} {user : User} {kind : String}
    (after : event.after = (setCode store user kind event.input.now).2)
    (sends : event.input.tx.sends = some kind) (codes : store.codes = event.before.codes)
    (drawn : event.before.drawn ≤ store.drawn) : ∃ row, Generates event row :=
  ⟨_, store, user, kind, sends, codes, drawn, after, rfl⟩

/-- What is stored after a code was generated. -/
theorem Generates.codes {event : CognitoEvent} {row : CodeRow} (generates : Generates event row) :
    ∀ other ∈ event.after.codes, other = row ∨
      (other ∈ event.before.codes ∧ ¬ other.For row.poolId row.username row.kind) := by
  obtain ⟨store, user, kind, _, codes, _, after, rfl⟩ := generates
  rw [after, ← codes]
  exact setCode_codes

/-- A write that sends no code leaves some of the codes. -/
theorem codes_write {input : Input} {store after : Store} (write : Write input store after)
    (silent : input.tx.sends = none) : ∀ row ∈ after.codes, row ∈ store.codes := by
  intro row member
  cases write with
  | other _ _ codes _ => rwa [codes] at member
  | poolCreated done =>
    obtain ⟨_, _, rest⟩ := bind_ok done
    obtain ⟨_, _, rest⟩ := bind_ok rest
    obtain ⟨_, _, rest⟩ := bind_ok rest
    cases rest
    exact member
  | poolUpdated tx done =>
    obtain ⟨_, _, rest⟩ := bind_ok done
    cases rest
    exact member
  | poolDeleted done =>
    obtain ⟨_, _, rest⟩ := bind_ok done
    obtain ⟨_, _, rest⟩ := bind_ok rest
    cases rest
    exact (List.mem_filter.mp member).1
  | userCreated known done tx =>
    obtain ⟨_, _, _, _, _, _, rfl⟩ := createUser_ok done
    exact member
  | userDeleted user => exact (List.mem_filter.mp member).1
  | profile _ _ _ => exact member
  | updated known done tx =>
    obtain ⟨_, _, rest⟩ := bind_ok done
    cases rest
    exact member
  | erased _ _ => exact member
  | confirmed _ _ _ => exact member
  | reset _ _ => exact member
  | codeSent user tx =>
    rw [silent] at tx
    cases tx
  | codeTaken done =>
    obtain ⟨_, rfl⟩ := checkCode_ok done
    exact (List.mem_filter.mp member).1

/-- **A transaction generates one code, or leaves some of those that are stored.** -/
theorem codes_taken {ctx : Ctx} {event : CognitoEvent} (taken : event.Taken (perform ctx)) :
    (∃ row, Generates event row) ∨ ∀ row ∈ event.after.codes, row ∈ event.before.codes := by
  cases sends : event.input.tx.sends with
  | none =>
    have kept := @Writes.keeps _ _ event.input
      (fun store => ∀ row ∈ store.codes, row ∈ event.before.codes) _ _ (perform_writes taken)
    exact Or.inr (kept (fun write known row member => known row (codes_write write sends row member))
      fun _ member => member)
  | some kind =>
    rcases taken_commit taken with ⟨_, _, same⟩ | ⟨_, _, done⟩
    · rw [same]
      exact Or.inr fun _ member => member
    · rcases event with ⟨before, input, output, after⟩
      have sent : ∀ {login clientId} {destination : Option String},
          sendCode before clientId login kind input.now = .ok (destination, after) →
          (∃ row, Generates ⟨before, input, output, after⟩ row) ∨
            ∀ row ∈ after.codes, row ∈ before.codes := by
        intro login clientId destination made
        obtain ⟨_, _, rest⟩ := bind_ok made
        obtain ⟨pool, _, rest⟩ := bind_ok rest
        split at rest
        · split at rest
          · cases rest
            exact Or.inr fun _ member => member
          · cases rest
        · obtain ⟨_, _, rest⟩ := bind_ok rest
          obtain ⟨_, _, rest⟩ := bind_ok rest
          cases rest
          exact Or.inl (Generates.of_setCode rfl sends rfl le_rfl)
      unfold transact at done
      cases tx : input.tx <;> simp only [tx] at done sends
      case adminResetUserPassword =>
        cases sends
        obtain ⟨⟨_, user⟩, _, rest⟩ := bind_ok (noAnswer_ok done).1
        obtain ⟨_, _, rest⟩ := bind_ok rest
        cases rest
        exact Or.inl (Generates.of_setCode rfl (congrArg Tx.sends tx) rfl le_rfl)
      case signUp =>
        cases sends
        obtain ⟨_, made, _⟩ := answerWith_ok done
        obtain ⟨_, _, rest⟩ := bind_ok made
        obtain ⟨_, _, rest⟩ := bind_ok rest
        obtain ⟨_, _, rest⟩ := bind_ok rest
        obtain ⟨_, _, rest⟩ := bind_ok rest
        obtain ⟨⟨user, stored⟩, created, rest⟩ := bind_ok rest
        cases rest
        obtain ⟨_, _, _, _, _, _, rfl⟩ := createUser_ok created
        exact Or.inl (Generates.of_setCode rfl (congrArg Tx.sends tx) rfl (Nat.le_add_right _ 2))
      case resendConfirmationCode =>
        cases sends
        obtain ⟨_, made, _⟩ := answerWith_ok done
        exact sent made
      case forgotPassword =>
        cases sends
        obtain ⟨_, made, _⟩ := answerWith_ok done
        exact sent made
      all_goals exact absurd sends nofun

/-- **A stored code is the latest of its kind**: some step of the run has generated it, and none
since then another one for the same user and of the same kind. -/
theorem code_generated {ctx : Ctx} {history : List CognitoEvent} {store : Store}
    (run : Run (perform ctx) Store.empty history store) : ∀ row ∈ store.codes,
      ∃ older generation newer, history = older ++ generation :: newer ∧
        Generates generation row ∧ ∀ later ∈ newer, ∀ other, Generates later other →
          ¬ other.For row.poolId row.username row.kind := by
  induction run with
  | start => exact fun _ none => absurd none List.not_mem_nil
  | @next history event _ taken ih =>
    intro row member
    by_cases fresh : Generates event row
    · exact ⟨history, event, [], rfl, fresh, fun _ none => absurd none List.not_mem_nil⟩
    · have stored : row ∈ event.before.codes := by
        rcases codes_taken taken with ⟨other, generates⟩ | kept
        · rcases generates.codes row member with rfl | ⟨stored, _⟩
          · exact absurd generates fresh
          · exact stored
        · exact kept row member
      obtain ⟨older, generation, newer, rfl, generated, latest⟩ := ih row stored
      refine ⟨older, generation, newer ++ [event], by simp, generated,
        fun later memberLater other generates same => ?_⟩
      rcases List.mem_append.mp memberLater with old | new
      · exact latest later old other generates same
      · rw [List.mem_singleton.mp new] at generates
        rcases generates.codes row member with rfl | ⟨_, different⟩
        · exact fresh generates
        · exact different ⟨same.1.symm, same.2.1.symm, same.2.2.symm⟩

/-! ### Attributes that are given -/

/-- What one update does to the email address and to its verification. -/
theorem updateAttribute_get {store : Store} {pool : Pool} {username : String} {given : List String}
    {attributes changed : Attributes} {name value : String}
    (done : updateAttribute store pool username given attributes name value = .ok changed) :
    changed["email"]? = (if name = "email" then some value else attributes["email"]?) ∧
    changed["email_verified"]? =
      if name = "email_verified" then some value
      else if name = "email" ∧ attributes["email"]? ≠ some value ∧ "email_verified" ∉ given then
        some "false"
      else attributes["email_verified"]? := by
  obtain ⟨_, _, rest⟩ := bind_ok done
  obtain ⟨_, _, rest⟩ := bind_ok rest
  rw [← Except.ok.inj rest]
  constructor
  · rw [getElem_insert]
    congr 1
    split <;> split <;> simp [getElem_insert]
  · rw [getElem_insert]
    congr 1
    by_cases reset : name = "email" ∧ attributes["email"]? ≠ some value ∧ "email_verified" ∉ given
    · have other : ¬ name = "phone_number" := by
        rw [reset.1]
        decide
      rw [if_pos reset, if_pos reset, if_neg fun phone => other phone.1, getElem_insert, if_pos rfl]
    · rw [if_neg reset, if_neg reset]
      split
      · rw [getElem_insert, if_neg (by decide)]
      · rfl

/-- Attributes that give no `true` leave the address verified only if they do not name the
verification, and it was verified. -/
theorem updateEach_named {store : Store} {pool : Pool} {username : String} {given : List String}
    (named : "email_verified" ∈ given) (entries : List (String × String))
    (notTrue : ("email_verified", "true") ∉ entries) {attributes changed : Attributes}
    (done : updateEach store pool username given entries attributes = .ok changed)
    (verified : changed["email_verified"]? = some "true") :
    attributes["email_verified"]? = some "true" ∧
      "email_verified" ∉ entries.map Prod.fst := by
  induction entries generalizing attributes with
  | nil =>
    cases done
    exact ⟨verified, List.not_mem_nil⟩
  | cons entry rest ih =>
    obtain ⟨next, first, later⟩ := bind_ok done
    obtain ⟨here, absent⟩ := ih (fun member => notTrue (List.mem_cons_of_mem _ member)) later
    rw [(updateAttribute_get first).2] at here
    by_cases own : entry.1 = "email_verified"
    · rw [if_pos own, Option.some.injEq] at here
      rw [← own, ← here] at notTrue
      exact absurd List.mem_cons_self notTrue
    · rw [if_neg own, if_neg fun reset => reset.2.2 named] at here
      refine ⟨here, fun member => ?_⟩
      rcases List.mem_cons.mp member with same | other
      · exact own same.symm
      · exact absent other

/-- Attributes that do not name the verification leave a verified address only as it was. -/
theorem updateEach_unnamed {store : Store} {pool : Pool} {username : String} {given : List String}
    (unnamed : "email_verified" ∉ given) (entries : List (String × String))
    (names : ∀ entry ∈ entries, entry.1 ∈ given) {attributes changed : Attributes}
    (done : updateEach store pool username given entries attributes = .ok changed)
    (verified : changed["email_verified"]? = some "true") :
    attributes["email_verified"]? = some "true" ∧
      changed["email"]? = attributes["email"]? := by
  induction entries generalizing attributes with
  | nil =>
    cases done
    exact ⟨verified, rfl⟩
  | cons entry rest ih =>
    obtain ⟨next, first, later⟩ := bind_ok done
    obtain ⟨here, same⟩ := ih (fun entry member => names entry (List.mem_cons_of_mem _ member)) later
    have other : entry.1 ≠ "email_verified" := by
      intro own
      have member := names entry List.mem_cons_self
      rw [own] at member
      exact unnamed member
    obtain ⟨email, verification⟩ := updateAttribute_get first
    rw [verification, if_neg other] at here
    split at here
    · exact absurd here (by decide)
    · rename_i unchanged
      refine ⟨here, same.trans (email.trans ?_)⟩
      by_cases own : entry.1 = "email"
      · rw [if_pos own]
        by_contra different
        exact unchanged ⟨own, fun equal => different equal.symm, unnamed⟩
      · rw [if_neg own]

theorem givenAttributes_mem {attributes : List (String × String)} {name value : String}
    (given : (givenAttributes attributes)[name]? = some value) : (name, value) ∈ attributes := by
  have inserted : ∀ (entries : List (String × String)) (start : Attributes),
      (entries.foldl (fun map entry => map.insert entry.1 entry.2) start)[name]? = some value →
      (name, value) ∈ entries ∨ start[name]? = some value := by
    intro entries
    induction entries with
    | nil => exact fun _ here => Or.inr here
    | cons entry rest ih =>
      intro start here
      rcases ih _ here with member | before
      · exact Or.inl (List.mem_cons_of_mem _ member)
      · rw [getElem_insert] at before
        split at before
        · rename_i same
          refine Or.inl ?_
          rw [← same, ← Option.some.inj before]
          exact List.mem_cons_self
        · exact Or.inr before
  rcases inserted _ _ given with member | none
  · exact (List.mem_filter.mp member).1
  · simp at none

/-- The verification that a new user starts with is one of the attributes given. -/
theorem newIdentity_verified {pool : Pool} {login sub username : String}
    {given : List (String × String)} {attributes : Attributes}
    (identity : newIdentity pool login sub (givenAttributes given) = .ok (username, attributes))
    (verified : attributes["email_verified"]? = some "true") :
    ("email_verified", "true") ∈ given := by
  unfold newIdentity at identity
  simp only at identity
  apply givenAttributes_mem
  split at identity
  · split at identity
    · cases identity
    · cases identity
      exact verified
  · split at identity
    · cases identity
      rwa [getElem_insert, if_neg (by decide)] at verified
    · split at identity
      · cases identity
        rwa [getElem_insert, if_neg (by decide)] at verified
      · cases identity

/-! ### Transactions -/

theorem verified_saveUser {store : Store} {changed : User} {poolId username email : String}
    (verified : EmailVerified (saveUser store changed) poolId username email) :
    EmailVerified store poolId username email ∨ (changed.Is poolId username ∧
      changed.attributes["email"]? = some email ∧
      changed.attributes["email_verified"]? = some "true") := by
  obtain ⟨row, member, is, address, flag⟩ := verified
  obtain ⟨old, memberOld, rfl⟩ := List.mem_map.mp member
  by_cases same : old.Is changed.poolId changed.username
  · rw [if_pos same] at is address flag
    exact Or.inr ⟨⟨same.1.symm.trans is.1, same.2.symm.trans is.2⟩, address, flag⟩
  · rw [if_neg same] at is address flag
    exact Or.inl ⟨old, memberOld, is, address, flag⟩

/-- **No other write verifies an address.** -/
theorem verified_write {input : Input} {store after : Store} {poolId username email : String}
    (write : Write input store after) (user : input.tx.verifies = false)
    (own : ("email_verified", "true") ∉ input.tx.ownAttributes) (noCode : input.tx.presents = none)
    (verified : EmailVerified after poolId username email) : EmailVerified store poolId username email := by
  cases write with
  | other users _ _ _ => rwa [EmailVerified, users] at verified
  | poolCreated done =>
    obtain ⟨_, _, rest⟩ := bind_ok done
    obtain ⟨_, _, rest⟩ := bind_ok rest
    obtain ⟨_, _, rest⟩ := bind_ok rest
    cases rest
    exact verified
  | poolUpdated tx done =>
    obtain ⟨_, _, rest⟩ := bind_ok done
    cases rest
    exact verified
  | poolDeleted done =>
    obtain ⟨_, _, rest⟩ := bind_ok done
    obtain ⟨_, _, rest⟩ := bind_ok rest
    cases rest
    obtain ⟨row, member, holds⟩ := verified
    exact ⟨row, (List.mem_filter.mp member).1, holds⟩
  | userCreated known done tx =>
    obtain ⟨_, _, identity, _, _, ⟨_, _, _, attributes⟩, rfl⟩ := createUser_ok done
    obtain ⟨row, member, is, address, flag⟩ := verified
    rcases List.mem_append.mp member with old | new
    · exact ⟨row, old, is, address, flag⟩
    · rw [List.mem_singleton.mp new, attributes] at flag
      have given := newIdentity_verified identity flag
      rcases tx with ⟨_, _, _, _, _, tx⟩ | ⟨_, _, _, tx⟩
      · rw [tx] at user
        cases user
      · rw [tx] at own
        exact absurd given own
  | userDeleted user =>
    obtain ⟨row, member, holds⟩ := verified
    exact ⟨row, (List.mem_filter.mp member).1, holds⟩
  | profile member same attributes =>
    rcases verified_saveUser verified with before | ⟨is, address, flag⟩
    · exact before
    · rw [attributes] at address flag
      exact ⟨_, member, ⟨same.poolId.symm.trans is.1, same.username.symm.trans is.2⟩, address, flag⟩
  | updated known done tx =>
    rename_i pool holder changed attributes
    rcases tx with ⟨_, _, tx⟩ | ⟨_, _, _, _, tx⟩
    · rw [tx] at user
      cases user
    · rw [tx] at own
      obtain ⟨updated, each, rest⟩ := bind_ok done
      cases rest
      rcases verified_saveUser verified with before | ⟨is, address, flag⟩
      · exact before
      · by_cases named : "email_verified" ∈ attributes.map Prod.fst
        · exact absurd named (updateEach_named named attributes own each flag).2
        · obtain ⟨was, same⟩ := updateEach_unnamed named attributes
            (fun entry member => List.mem_map_of_mem member) each flag
          exact ⟨holder, known.member, is, same.symm.trans address, was⟩
  | erased member names =>
    rcases verified_saveUser verified with before | ⟨is, address, flag⟩
    · exact before
    · exact ⟨_, member, is, erase_get names _ address, erase_get names _ flag⟩
  | confirmed member pool tx =>
    rcases tx with ⟨_, _, tx⟩ | ⟨_, _, _, tx⟩
    · rw [tx] at user
      cases user
    · rw [tx] at noCode
      cases noCode
  | reset member tx =>
    obtain ⟨_, _, _, _, tx⟩ := tx
    rw [tx] at noCode
    cases noCode
  | codeSent user tx => exact verified
  | codeTaken done => rwa [EmailVerified, checkCode_users done] at verified

theorem confirmedAttributes_email (pool : Pool) (user : User) :
    (confirmedAttributes pool user)["email"]? = user.attributes["email"]? := by
  unfold confirmedAttributes
  split
  · rw [getElem_insert, if_neg (by decide)]
  · rfl

theorem resetAttributes_email (user : User) :
    (resetAttributes user)["email"]? = user.attributes["email"]? := by
  unfold resetAttributes
  split
  · rw [getElem_insert, if_neg (by decide)]
  · rfl

/-- A code that is taken is presented. -/
theorem presents_of_check {event : CognitoEvent} {kind clientId login code : String} {pool : Pool}
    {user : User} {checked : Store} {poolId username : String}
    (tx : event.input.tx.presents = some (kind, clientId, login, code))
    (found : withClientUser event.before clientId login = .ok (pool, user))
    (is : user.Is poolId username)
    (taken : checkCode event.before user kind code event.input.now = .ok checked) :
    ∃ row, Presents event poolId username row := by
  obtain ⟨⟨row, member, isFor, same, alive⟩, _⟩ := checkCode_ok taken
  rw [is.1, is.2] at isFor
  exact ⟨row, kind, clientId, login, code, pool, user, tx, found, is, member, isFor, same, alive⟩

/-- **The transactions after which an address is verified that was not before.** -/
theorem verified_taken {ctx : Ctx} {event : CognitoEvent} {poolId username email : String}
    (taken : event.Taken (perform ctx)) (before : ¬ EmailVerified event.before poolId username email)
    (after : EmailVerified event.after poolId username email) :
    event.input.tx.verifies = true ∨
      ("email_verified", "true") ∈ event.input.tx.ownAttributes ∨
      (HasEmail event.before poolId username email ∧ ∃ row, Presents event poolId username row) := by
  by_cases admin : event.input.tx.verifies = true
  · exact Or.inl admin
  by_cases own : ("email_verified", "true") ∈ event.input.tx.ownAttributes
  · exact Or.inr (Or.inl own)
  refine Or.inr (Or.inr ?_)
  rw [Bool.not_eq_true] at admin
  by_cases noCode : event.input.tx.presents = none
  · have kept := @Writes.keeps _ _ event.input
      (fun store => ¬ EmailVerified store poolId username email) _ _ (perform_writes taken)
    exact absurd after (kept (fun write unverified verified =>
      unverified (verified_write write admin own noCode verified)) before)
  rcases taken_commit taken with ⟨_, _, same⟩ | ⟨_, _, done⟩
  · rw [same] at after
    exact absurd after before
  rcases event with ⟨store, input, output, stored⟩
  unfold transact at done
  cases tx : input.tx <;> simp only [tx] at done noCode <;>
    try exact absurd rfl noCode
  case confirmSignUp clientId login code =>
    obtain ⟨⟨pool, user⟩, found, rest⟩ := bind_ok (noAnswer_ok done).1
    obtain ⟨_, _, rest⟩ := bind_ok rest
    obtain ⟨checked, check, rest⟩ := bind_ok rest
    obtain ⟨_, _, rest⟩ := bind_ok rest
    cases rest
    rcases verified_saveUser after with unchanged | ⟨is, address, _⟩
    · rw [EmailVerified, checkCode_users check] at unchanged
      exact absurd unchanged before
    · exact ⟨⟨user, (withClientUser_known found).member, is,
        (confirmedAttributes_email pool user).symm.trans address⟩,
        presents_of_check (congrArg Tx.presents tx) found is check⟩
  case confirmForgotPassword clientId login code password =>
    obtain ⟨⟨pool, user⟩, found, rest⟩ := bind_ok (noAnswer_ok done).1
    obtain ⟨checked, check, rest⟩ := bind_ok rest
    obtain ⟨⟨changed, written⟩, set, rest⟩ := bind_ok rest
    cases rest
    have member := (withClientUser_known found).member
    obtain ⟨_, _, set⟩ := bind_ok set
    obtain ⟨rfl, rfl⟩ := Prod.mk.inj (Except.ok.inj set)
    rcases verified_saveUser after with unchanged | ⟨is, address, _⟩
    · rcases verified_saveUser unchanged with early | ⟨is, address, flag⟩
      · rw [EmailVerified, checkCode_users check] at early
        exact absurd early before
      · exact absurd ⟨user, member, is, address, flag⟩ before
    · exact ⟨⟨user, member, is, (resetAttributes_email _).symm.trans address⟩,
        presents_of_check (congrArg Tx.presents tx) found is check⟩

/-! ### Every run -/

/-- **Where a verified address comes from.** In every run, an email address that counts as verified
became so by a transaction, and has counted as verified since. The transaction is one of an
administrator; or one in which the user gave the attribute; or the user presented, before it
expired, the latest code of its kind, which was generated while the address was the same one, or
before it was set to it. -/
theorem verification_origin {ctx : Ctx} {history : List CognitoEvent} {store : Store}
    {poolId username email : String} (served : CognitoRun ctx history store)
    (verified : EmailVerified store poolId username email) :
    ∃ past event rest, history = past ++ event :: rest ∧
      ¬ EmailVerified event.before poolId username email ∧
      (∀ later ∈ event :: rest, EmailVerified later.after poolId username email) ∧
      (event.input.tx.verifies = true ∨
        ("email_verified", "true") ∈ event.input.tx.ownAttributes ∨
        Earned past event poolId username email) := by
  obtain ⟨past, event, rest, rfl, before, since⟩ :=
    served.run.since (EmailVerified · poolId username email)
      (fun ⟨_, absent, _⟩ => absurd absent List.not_mem_nil) verified
  refine ⟨past, event, rest, rfl, before, since, ?_⟩
  obtain ⟨runPast, taken, _⟩ := served.run.around
  rcases verified_taken taken before (since event List.mem_cons_self) with
    admin | own | ⟨address, row, presents⟩
  · exact Or.inl admin
  · exact Or.inr (Or.inl own)
  · refine Or.inr (Or.inr ?_)
    have ⟨kind, _, _, _, _, _, _, _, _, member, ⟨samePool, sameName, sameKind⟩, _⟩ := presents
    obtain ⟨older, generation, newer, rfl, generates, latest⟩ := code_generated runPast row member
    rw [samePool, sameName] at latest
    refine ⟨row, older, generation, newer, rfl, presents, generates, latest, ?_⟩
    by_cases early : HasEmail generation.after poolId username email
    · exact Or.inl early
    · obtain ⟨_, change, _, rfl, unset, set⟩ :=
        runPast.around.2.2.since (HasEmail · poolId username email) early address
      exact Or.inr ⟨change, by simp, unset, set change List.mem_cons_self⟩

end External

/-! ### Addresses that are verified without a code of theirs -/

section Sample

attribute [local instance] sampleExternal Crypto.sample

/-- A sign-up that gives its email address as verified. -/
def sampleSelfVerified : List Tx :=
  samplePool ++
    [.signUp sampleClientId "eve" "password"
      [("email", "eve@example.com"), ("email_verified", "true")]]

/-- A user who asks for a code, changes the email address in the answer to a challenge, and resets
the password with the code. -/
def sampleReset : List Tx :=
  samplePool ++
    [.adminCreateUser samplePoolId "dev" [("email", "dev@example.com")] (some "temporary")
        (some "SUPPRESS") false,
      .initiateAuth none sampleClientId "dev" "temporary",
      .forgotPassword sampleClientId "dev"]

/-- The answer to the challenge, with another email address. -/
def sampleMoved : Tx :=
  .respondToAuthChallenge none sampleClientId (Crypto.randomToken 6) "password"
    [("email", "eve@example.com")]

/-- The code that was sent to the first address. -/
def samplePresented : Tx :=
  .confirmForgotPassword sampleClientId "dev" (Crypto.sixDigitCode 7) "changed-again"

/-- **Addresses that nobody has verified**: a sign-up gives its address as verified; and a code
verifies an address that the user did not have when the only code was generated. -/
theorem verification_unearned :
    (∃ history store, CognitoRun sampleCtx history store ∧
      EmailVerified store samplePoolId "eve" "eve@example.com" ∧
      ∀ event ∈ history, event.input.tx.verifies = false ∧ event.input.tx.presents = none) ∧
    ∃ past event store, CognitoRun sampleCtx (past ++ [event]) store ∧
      ¬ EmailVerified event.before samplePoolId "dev" "eve@example.com" ∧
      EmailVerified event.after samplePoolId "dev" "eve@example.com" ∧
      event.input.tx.verifies = false ∧
      ∀ generation ∈ past, generation.input.tx.sends ≠ none →
        ¬ HasEmail generation.after samplePoolId "dev" "eve@example.com" := by
  refine ⟨⟨_, _, CognitoRun.of_inputs sampleCtx (sampleInputs sampleSelfVerified) (by decide),
    by decide, by decide⟩, ?_⟩
  exact ⟨_, _, _, CognitoRun.of_cut sampleCtx (sampleInputs (sampleReset ++ [sampleMoved]))
    { now := 0, tx := samplePresented } [] (by decide), by decide,
    by decide, by decide, by decide⟩

/-- The verified address of a user who presents the code that was sent to it. -/
theorem verification_origin_sample :
    EmailVerified (sampleStore (sampleReset ++ [samplePresented])) samplePoolId "dev"
      "dev@example.com" ∧
    ∃ past event rest,
      Run.trace (perform sampleCtx) Store.empty
        (sampleInputs (sampleReset ++ [samplePresented])) = past ++ event :: rest ∧
      (event.input.tx.verifies = true ∨
        ("email_verified", "true") ∈ event.input.tx.ownAttributes ∨
        Earned past event samplePoolId "dev" "dev@example.com") := by
  have verified : EmailVerified (sampleStore (sampleReset ++ [samplePresented])) samplePoolId "dev"
      "dev@example.com" := by decide
  obtain ⟨past, event, rest, same, _, _, origin⟩ := verification_origin
    (CognitoRun.of_inputs sampleCtx (sampleInputs (sampleReset ++ [samplePresented]))
      (by decide)) verified
  exact ⟨verified, past, event, rest, same, origin⟩

end Sample

end CloudTwin.Cognito
