/-
**SES identities** (`aws/ses/service.rs`, `aws/ses/models.rs`).

An identity is an address or a domain. A read of it moves its verification on, by the number of reads
or by the time, and writes what changed back.

* `VerificationState.advance`, `VerificationState.force` — the verification state machine.
* `SesIdentity.refresh` — what a read makes of the row.
* `normalizeIdentity`, `addressDomain`, `candidates` — the identities that an address is looked up by.
* `refresh_refresh` — a second read at one time changes nothing more.
-/

import CloudTwin.Ses.Receiving

namespace CloudTwin.Ses

open Lib Lib.Text

/-! ### Verification -/

def PENDING : String := "PENDING"

def SUCCESS : String := "SUCCESS"

/-- Verification progress; the due time is a reading of the clock. -/
structure VerificationState where
  status : String
  mode : String
  outcome : String
  checksLeft : Nat
  verifyAt : Option Int
deriving DecidableEq

/-- `VerificationState::default`. -/
def VerificationState.none : VerificationState where
  status := ""
  mode := ""
  outcome := ""
  checksLeft := 0
  verifyAt := Option.none

def normalizeOutcome (text : String) : String :=
  let upper := String.ofList (text.toList.map Char.toUpper)
  if upper = "FAILED" ∨ upper = "FAILURE" then "FAILED"
  else if upper = "TEMPORARY_FAILURE" ∨ upper = "TEMPORARYFAILURE" then "TEMPORARY_FAILURE"
  else if upper = "PENDING" then PENDING
  else if upper = "NOT_STARTED" then "NOT_STARTED"
  else SUCCESS

/-- The rule for an identity, as the configuration resolves it. -/
structure ResolvedRule where
  mode : String
  checks : Nat
  delaySeconds : Nat
  outcome : String

/-- The initial state under the rule; a reading of the clock counts seconds. -/
def VerificationState.start (rule : ResolvedRule) (now : Int) : VerificationState :=
  let outcome := normalizeOutcome rule.outcome
  let pending : VerificationState :=
    { status := PENDING, mode := rule.mode, outcome, checksLeft := 0, verifyAt := Option.none }
  if rule.mode = "manual" ∨ rule.mode = "pending" then pending
  else if (rule.mode = "after_checks" ∨ rule.mode = "checks") ∧ 0 < rule.checks then
    { pending with checksLeft := rule.checks }
  else if rule.mode = "delay" ∧ 0 < rule.delaySeconds then
    { pending with verifyAt := some (now + rule.delaySeconds) }
  else { pending with status := outcome }

/-- **A read of a pending state**: one check less, if the read counts, or the time has come. The flag
says whether the status is set. -/
def VerificationState.advance (countCheck : Bool) (now : Int) (state : VerificationState) :
    VerificationState × Bool :=
  if state.status ≠ PENDING then (state, false)
  else if state.mode = "after_checks" ∨ state.mode = "checks" then
    let left := if countCheck then state.checksLeft - 1 else state.checksLeft
    if left = 0 then ({ state with checksLeft := left, status := state.outcome }, true)
    else ({ state with checksLeft := left }, false)
  else if state.mode = "delay" ∧ (state.verifyAt.all fun due => decide (due ≤ now)) = true then
    ({ state with status := state.outcome }, true)
  else (state, false)

/-- Force a status. -/
def VerificationState.force (status : String) (state : VerificationState) : VerificationState :=
  { state with
    mode := if normalizeOutcome status = PENDING then "manual" else state.mode
    status := normalizeOutcome status
    checksLeft := 0
    verifyAt := Option.none }

/-! ### Identities -/

/-- A row of `ses_identities`: the columns that a request can change. -/
structure SesIdentity where
  identity : String
  verification : VerificationState
  dkimSigningEnabled : Bool
  mailFromDomain : Option String
  mailFromBehavior : String
  mailFrom : VerificationState
  feedbackForwarding : Bool
  configurationSet : Option String
  lastCheckedAt : Option Int
  lastSuccessAt : Option Int
deriving DecidableEq

/-- `SesIdentity::verified`. -/
def SesIdentity.verified (row : SesIdentity) : Bool :=
  row.verification.status == SUCCESS

/-- **What a read makes of a row.** -/
def SesIdentity.refresh (countCheck : Bool) (now : Int) (row : SesIdentity) : SesIdentity :=
  let verification := (row.verification.advance countCheck now).1
  { row with
    verification := verification
    mailFrom := (row.mailFrom.advance countCheck now).1
    lastCheckedAt := if countCheck then some now else row.lastCheckedAt
    lastSuccessAt :=
      if verification.status = SUCCESS ∧ row.lastSuccessAt.isNone then some now
      else row.lastSuccessAt }

/-- Whether a read writes the row: a counting one always does. -/
def SesIdentity.refreshSaves (countCheck : Bool) (now : Int) (row : SesIdentity) : Bool :=
  (row.verification.advance countCheck now).2 || (row.mailFrom.advance countCheck now).2 || countCheck

/-! ### Addresses -/

/-- What stands before the last such character. -/
def beforeLast (char : Char) (text : String) : String :=
  String.ofList ((text.toList.reverse.dropWhile (· != char)).drop 1).reverse

/-- `address_domain`. -/
def addressDomain (addr : String) : Option String :=
  let bare := bareAddress addr
  if '@' ∈ bare.toList then some (toAsciiLowercase (afterLast '@' bare)) else none

/-- `normalize_identity`. -/
def normalizeIdentity (identity : String) : String :=
  let id := trim identity
  if '@' ∈ id.toList then beforeLast '@' id ++ "@" ++ toAsciiLowercase (afterLast '@' id)
  else toAsciiLowercase (trimEndMatches '.' id)

/-- `labels.join(".")`. -/
def joinLabels (labels : List String) : String :=
  String.ofList (List.intercalate ['.'] (labels.map String.toList))

/-- The labels of the domain of an address. -/
def domainLabels (addr : String) : List String :=
  match addressDomain addr with
  | some domain => split '.' domain
  | none => []

/-- The domains that start at the first labels, so many of them. -/
def domainsFrom (labels : List String) (count : Nat) : List String :=
  (List.range count).map fun start => joinLabels (labels.drop start)

/-- **The identities that an address is looked up by**: itself, and the domains that have at least two
labels. -/
def candidates (address : String) : List String :=
  let addr := normalizeIdentity (bareAddress address)
  addr :: domainsFrom (domainLabels addr) ((domainLabels addr).length - 1)

/-! ### A second read -/

theorem advance_advance (now : Int) (state : VerificationState) :
    ((state.advance false now).1.advance false now).1 = (state.advance false now).1 := by
  unfold VerificationState.advance
  by_cases pending : state.status = PENDING
  · by_cases checks : state.mode = "after_checks" ∨ state.mode = "checks"
    · by_cases none : state.checksLeft = 0
      · by_cases outcome : state.outcome = PENDING
        · simp [pending, checks, none, outcome]
        · simp [pending, checks, none, outcome]
      · simp [pending, checks, none]
    · by_cases due : state.mode = "delay" ∧
          (state.verifyAt.all fun due => decide (due ≤ now)) = true
      · obtain ⟨delay, late⟩ := due
        by_cases outcome : state.outcome = PENDING
        · simp [pending, delay, late, outcome]
        · simp [pending, delay, late, outcome]
      · simp [pending, checks, due]
  · simp [pending]

/-- **A second read at one time changes nothing more.** -/
theorem refresh_refresh (now : Int) (row : SesIdentity) :
    (row.refresh false now).refresh false now = row.refresh false now := by
  unfold SesIdentity.refresh
  simp only [advance_advance, Bool.false_eq_true, if_false]
  congr 1
  by_cases success : (row.verification.advance false now).1.status = SUCCESS ∧
      row.lastSuccessAt.isNone = true
  · rw [if_pos success, ite_self]
  · rw [if_neg success, if_neg success]

end CloudTwin.Ses
