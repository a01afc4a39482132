/-
**Updates of SES identities that cross** (`aws/ses/service.rs`).

Every request loads the row of an identity in one call and writes all of it back in another: a read
that moves the verification on, a forced status, and each setting. What another request wrote in
between is overwritten. Creation and deletion are left out; a send reads its identities one by one.

* `IdentityChange.apply`, `SesIdentity.forced` — what a request makes of the row.
* `IdentityTask`, `IdentityTask.writes` — the call that a request makes next, and the row that it writes.
* `FreshIdentityWrite` — the row is still what the request goes by when it writes it.
* `identity_updates` — fresh writes are one after the other, and the verification counts exactly.
* `forced_status_lost` — a setting that is written over a forced status.
-/

import CloudTwin.Ses.Identities
import CloudTwin.Lib.Tasks
import CloudTwin.Lib.Serial
import Mathlib.Data.List.Permutation

namespace CloudTwin.Ses

open Lib Lib.Text

set_option linter.unusedSectionVars false

/-! ### Changes of a row -/

inductive IdentityError where
  | notFound (message : String)
  | badRequest (message : String)
  | configurationSetDoesNotExist (message : String)
deriving DecidableEq

/-- The verification rule that the configuration has for a name. -/
class VerificationRules where
  ruleFor : String → ResolvedRule

/-- A setting of an identity. -/
inductive IdentityChange where
  | mailFrom (domain behavior : Option String)
  | dkimSigning (enabled : Bool)
  | feedbackForwarding (enabled : Bool)
  | configurationSet (name : Option String)

/-- The behavior without a MAIL FROM record, as it is stored. -/
def mailFromBehavior (behavior : Option String) : Except IdentityError String :=
  match behavior with
  | none => .ok "USE_DEFAULT_VALUE"
  | some text =>
    let name := String.ofList ((text.toList.map Char.toUpper).filter (· != '_'))
    if name = "USEDEFAULTVALUE" then .ok "USE_DEFAULT_VALUE"
    else if name = "REJECTMESSAGE" then .ok "REJECT_MESSAGE"
    else .error (.badRequest ("Invalid BehaviorOnMxFailure: " ++ name))

/-- The domain that a MAIL FROM domain has to be below. -/
def SesIdentity.parentDomain (row : SesIdentity) : String :=
  if '@' ∈ row.identity.toList then (addressDomain row.identity).getD "" else row.identity

/-- The status of the identity is forced, if one is given. -/
def SesIdentity.forcedStatus (now : Int) (status : Option String) (row : SesIdentity) : SesIdentity :=
  match status with
  | none => row
  | some status =>
    let verification := row.verification.force status
    { row with
      verification := verification
      lastSuccessAt := if verification.status = SUCCESS then some now else row.lastSuccessAt }

/-- **`set_verification`** on the row. -/
def SesIdentity.forced (now : Int) (status mailFromStatus : Option String) (row : SesIdentity) :
    Except IdentityError SesIdentity :=
  let row := row.forcedStatus now status
  match mailFromStatus with
  | none => .ok row
  | some status =>
    if row.mailFromDomain.isNone then
      .error (.badRequest ("Identity " ++ row.identity ++ " has no custom MAIL FROM domain."))
    else .ok { row with mailFrom := row.mailFrom.force status }

section Rules

variable [VerificationRules]

/-- `put_mail_from`, `put_dkim_signing`, `put_feedback_forwarding` and
`put_identity_configuration_set` on the row. -/
def IdentityChange.apply (change : IdentityChange) (now : Int) (row : SesIdentity) :
    Except IdentityError SesIdentity :=
  match change with
  | .mailFrom domain behavior => do
    let behavior ← mailFromBehavior behavior
    let d := (domain.map fun text => toAsciiLowercase (trimEndMatches '.' (trim text))).getD ""
    if d = "" then
      .ok { row with mailFromDomain := none, mailFrom := .none, mailFromBehavior := behavior }
    else if !endsWith d ("." ++ row.parentDomain) then
      .error (.badRequest ("MAIL FROM domain " ++ d ++ " must be a subdomain of " ++
        row.parentDomain ++ "."))
    else
      .ok { row with
        mailFrom :=
          if row.mailFromDomain = some d then row.mailFrom
          else .start (VerificationRules.ruleFor d) now
        mailFromDomain := some d
        mailFromBehavior := behavior }
  | .dkimSigning enabled => .ok { row with dkimSigningEnabled := enabled }
  | .feedbackForwarding enabled => .ok { row with feedbackForwarding := enabled }
  | .configurationSet name => .ok { row with configurationSet := name }

/-! ### Calls -/

/-- The identities, and the names of the configuration sets. -/
structure IdentityStore where
  identities : List SesIdentity
  configurationSets : List String

/-- `load_identity`, of a name that is normalized. -/
def IdentityStore.load (store : IdentityStore) (identity : String) : Option SesIdentity :=
  store.identities.find? fun row => row.identity == identity

/-- `save_identity`. -/
def IdentityStore.save (store : IdentityStore) (row : SesIdentity) : IdentityStore :=
  { store with
    identities := store.identities.map fun other => if other.identity = row.identity then row else other }

inductive IdentityRequest where
  | getIdentity (identity : String) (countCheck : Bool)
  | listIdentities
  | setVerification (identity : String) (status mailFromStatus : Option String)
  | put (identity : String) (change : IdentityChange)

/-- **The call that a request makes next.** It goes by `seen`, the row that it has loaded or written. -/
inductive IdentityTask where
  | start (request : IdentityRequest)
  | refresh (seen : SesIdentity) (countCheck : Bool) (next : Option IdentityChange)
  | requireSet (seen row : SesIdentity) (readAt : Int) (name : String)
  | update (seen row : SesIdentity) (readAt : Int) (change : IdentityChange)
  | force (seen : SesIdentity) (status mailFromStatus : Option String)
  | listed (rows : List SesIdentity)

/-- **The row that a call goes by, and the row that it writes.** -/
def IdentityTask.writes (now : Int) : IdentityTask → Option (SesIdentity × SesIdentity)
  | .refresh seen countCheck _ =>
    if seen.refreshSaves countCheck now then some (seen, seen.refresh countCheck now) else none
  | .update seen row _ change =>
    match change.apply now row with
    | .ok changed => some (seen, changed)
    | .error _ => none
  | .force seen status mailFromStatus =>
    match seen.forced now status mailFromStatus with
    | .ok changed => some (seen, changed)
    | .error _ => none
  | .listed (seen :: _) =>
    if seen.refreshSaves false now then some (seen, seen.refresh false now) else none
  | _ => none

abbrev IdentityProgress := Progress IdentityTask (Except IdentityError Unit)

/-- What follows the read of an update. -/
def afterIdentityRead (seen row : SesIdentity) (readAt : Int) : Option IdentityChange → IdentityProgress
  | none => .ends (.ok ())
  | some (.configurationSet (some name)) => .continues (.requireSet seen row readAt name)
  | some change => .continues (.update seen row readAt change)

def noIdentity (identity : String) : IdentityError :=
  .notFound ("Email identity " ++ identity ++ " does not exist.")

/-- Where the first call of a request leads. -/
def IdentityRequest.begin (store : IdentityStore) : IdentityRequest → IdentityProgress
  | .getIdentity identity countCheck =>
    match store.load (normalizeIdentity identity) with
    | some row => .continues (.refresh row countCheck none)
    | none => .ends (.error (noIdentity identity))
  | .listIdentities => .continues (.listed store.identities)
  | .setVerification identity status mailFromStatus =>
    match store.load (normalizeIdentity identity) with
    | some row => .continues (.force row status mailFromStatus)
    | none => .ends (.error (noIdentity identity))
  | .put identity change =>
    match store.load (normalizeIdentity identity) with
    | some row => .continues (.refresh row false (some change))
    | none => .ends (.error (noIdentity identity))

/-- Where a call leads. -/
def IdentityTask.leads (now : Int) (store : IdentityStore) : IdentityTask → IdentityProgress
  | .start request => request.begin store
  | .refresh seen countCheck next =>
    let row := seen.refresh countCheck now
    afterIdentityRead (if seen.refreshSaves countCheck now then row else seen) row now next
  | .requireSet seen row readAt name =>
    if name ∈ store.configurationSets then
      .continues (.update seen row readAt (.configurationSet (some name)))
    else .ends (.error (.configurationSetDoesNotExist
      ("Configuration set <" ++ name ++ "> does not exist.")))
  | .update _ row _ change =>
    .ends (match change.apply now row with
      | .ok _ => .ok ()
      | .error error => .error error)
  | .force seen status mailFromStatus =>
    .ends (match seen.forced now status mailFromStatus with
      | .ok _ => .ok ()
      | .error error => .error error)
  | .listed (_ :: rest) => .continues (.listed rest)
  | .listed [] => .ends (.ok ())

/-- **A call**, at a reading of the clock. -/
def IdentityTask.run (now : Int) (task : IdentityTask) (store : IdentityStore) :
    IdentityProgress × IdentityStore :=
  (task.leads now store,
    match task.writes now with
    | some (_, row) => store.save row
    | none => store)

abbrev IdentitySystem := System IdentityStore (Option IdentityTask)

abbrev IdentityEvent :=
  Event IdentitySystem (Nat × Turn Int IdentityRequest) (Option (Except IdentityError Unit))

/-- **A client takes one call.** -/
def identityStep : IdentitySystem → Nat × Turn Int IdentityRequest →
    Option (Except IdentityError Unit) × IdentitySystem :=
  System.step (advance IdentityTask.start IdentityTask.run)

def identityTaskOf (event : IdentityEvent) : IdentityTask :=
  taskOf IdentityTask.start event

/-! ### Whole requests on a row -/

inductive RowOperation where
  | read (countCheck : Bool) (now : Int)
  | put (change : IdentityChange) (readAt now : Int)
  | force (status mailFromStatus : Option String) (now : Int)

/-- What a request makes of a row. -/
def RowOperation.apply (operation : RowOperation) (row : SesIdentity) :
    Except IdentityError SesIdentity :=
  match operation with
  | .read countCheck now => .ok (row.refresh countCheck now)
  | .put change readAt now => change.apply now (row.refresh false readAt)
  | .force status mailFromStatus now => row.forced now status mailFromStatus

/-- **A whole request on the row**, and whether it succeeds. -/
def rowStep (row : Option SesIdentity) (operation : RowOperation) : Bool × Option SesIdentity :=
  match row with
  | none => (false, none)
  | some row =>
    match operation.apply row with
    | .ok changed => (true, some changed)
    | .error _ => (false, some row)

/-- The request that a call ends, or reads for. -/
def IdentityTask.operation (now : Int) : IdentityTask → Option RowOperation
  | .refresh _ countCheck _ => some (.read countCheck now)
  | .update _ _ readAt change => some (.put change readAt now)
  | .force _ status mailFromStatus => some (.force status mailFromStatus now)
  | .listed (_ :: _) => some (.read false now)
  | _ => none

/-- **The write of a call to the row of an identity**, as a request. -/
def pointOnIdentity (identity : String) (event : IdentityEvent) : Option RowOperation :=
  match (identityTaskOf event).writes event.input.2.call with
  | some (seen, _) =>
    if seen.identity = identity then (identityTaskOf event).operation event.input.2.call else none
  | none => none

/-- **The row is what the call goes by** when it writes it. -/
def FreshIdentityWrite (event : IdentityEvent) : Prop :=
  ∀ seen row, (identityTaskOf event).writes event.input.2.call = some (seen, row) →
    event.before.shared.load seen.identity = some seen

/-! ### One row -/

/-- A setting leaves the name and the verification. -/
theorem apply_spec {change : IdentityChange} {now : Int} {row changed : SesIdentity}
    (done : change.apply now row = .ok changed) :
    changed.identity = row.identity ∧ changed.verification = row.verification := by
  cases change with
  | mailFrom domain behavior =>
    simp only [IdentityChange.apply] at done
    cases parsed : mailFromBehavior behavior with
    | error error =>
      rw [parsed] at done
      cases done
    | ok name =>
      rw [parsed] at done
      simp only [bind, Except.bind] at done
      split at done
      · cases done
        exact ⟨rfl, rfl⟩
      · split at done
        · cases done
        · cases done
          exact ⟨rfl, rfl⟩
  | dkimSigning enabled =>
    cases done
    exact ⟨rfl, rfl⟩
  | feedbackForwarding enabled =>
    cases done
    exact ⟨rfl, rfl⟩
  | configurationSet name =>
    cases done
    exact ⟨rfl, rfl⟩

theorem forcedStatus_identity (now : Int) (status : Option String) (row : SesIdentity) :
    (row.forcedStatus now status).identity = row.identity := by
  cases status with
  | none => rfl
  | some status => rfl

/-- What a forced status makes of the verification. -/
theorem forced_spec {now : Int} {status mailFromStatus : Option String} {row changed : SesIdentity}
    (done : row.forced now status mailFromStatus = .ok changed) :
    changed.identity = row.identity ∧
      changed.verification = (row.forcedStatus now status).verification := by
  unfold SesIdentity.forced at done
  cases mailFromStatus with
  | none =>
    cases done
    exact ⟨forcedStatus_identity now status row, rfl⟩
  | some other =>
    simp only at done
    by_cases none : (row.forcedStatus now status).mailFromDomain.isNone = true
    · rw [if_pos none] at done
      cases done
    · rw [if_neg none] at done
      cases done
      exact ⟨forcedStatus_identity now status row, rfl⟩

/-- A call writes the row that it goes by. -/
theorem writes_identity {task : IdentityTask} {now : Int} {seen row : SesIdentity}
    (sound : ∀ seen other readAt change, task = .update seen other readAt change →
      other = seen.refresh false readAt)
    (writes : task.writes now = some (seen, row)) : row.identity = seen.identity := by
  cases task with
  | start request => cases writes
  | requireSet seen row readAt name => cases writes
  | refresh loaded countCheck next =>
    simp only [IdentityTask.writes] at writes
    split at writes
    · cases writes
      rfl
    · cases writes
  | update loaded other readAt change =>
    simp only [IdentityTask.writes] at writes
    split at writes
    · rename_i changed applied
      cases writes
      rw [(apply_spec applied).1, sound _ _ _ _ rfl]
      rfl
    · cases writes
  | force loaded status mailFromStatus =>
    simp only [IdentityTask.writes] at writes
    split at writes
    · rename_i changed forced
      cases writes
      exact (forced_spec forced).1
    · cases writes
  | listed rows =>
    cases rows with
    | nil => cases writes
    | cons first rest =>
      simp only [IdentityTask.writes] at writes
      split at writes
      · cases writes
        rfl
      · cases writes

theorem load_save (store : IdentityStore) (row : SesIdentity) (identity : String) :
    (store.save row).load identity =
      if row.identity = identity then (store.load identity).map fun _ => row
      else store.load identity := by
  have found : (store.save row).load identity = (store.load identity).map fun other =>
      if other.identity = row.identity then row else other := by
    show (store.identities.map _).find? _ = _
    rw [List.find?_map]
    refine congrArg (Option.map _) (congrArg (fun condition => store.identities.find? condition) ?_)
    funext other
    by_cases same : other.identity = row.identity
    · simp [same]
    · simp [same]
  rw [found]
  cases loaded : store.load identity with
  | none => simp
  | some other =>
    have own := List.find?_some loaded
    replace own := beq_iff_eq.mp own
    by_cases here : row.identity = identity
    · simp [here, own]
    · have apart : other.identity ≠ row.identity := fun same => here (same.symm.trans own)
      simp [here, apart]

/-! ### Calls that go by the row -/

/-- The row in memory is the row that the request goes by, moved on. -/
def Read : IdentityTask → Prop
  | .requireSet seen row readAt _ => row = seen.refresh false readAt
  | .update seen row readAt _ => row = seen.refresh false readAt
  | .refresh _ countCheck next => next.isSome = true → countCheck = false
  | _ => True

theorem read_after {seen row : SesIdentity} {readAt : Int} {next : Option IdentityChange}
    {task : IdentityTask} (same : row = seen.refresh false readAt)
    (goes : afterIdentityRead seen row readAt next = .continues task) : Read task := by
  cases next with
  | none => cases goes
  | some change =>
    cases change with
    | configurationSet name =>
      cases name with
      | none =>
        cases goes
        exact same
      | some name =>
        cases goes
        exact same
    | mailFrom domain behavior =>
      cases goes
      exact same
    | dkimSigning enabled =>
      cases goes
      exact same
    | feedbackForwarding enabled =>
      cases goes
      exact same

theorem read_leads {now : Int} {task next : IdentityTask} {store : IdentityStore} (read : Read task)
    (goes : task.leads now store = .continues next) : Read next := by
  cases task with
  | start request =>
    cases request with
    | listIdentities =>
      cases goes
      trivial
    | getIdentity identity countCheck =>
      simp only [IdentityTask.leads, IdentityRequest.begin] at goes
      split at goes
      · cases goes
        exact nofun
      · cases goes
    | setVerification identity status mailFromStatus =>
      simp only [IdentityTask.leads, IdentityRequest.begin] at goes
      split at goes
      · cases goes
        trivial
      · cases goes
    | put identity change =>
      simp only [IdentityTask.leads, IdentityRequest.begin] at goes
      split at goes
      · cases goes
        exact fun _ => rfl
      · cases goes
  | refresh seen countCheck update =>
    cases update with
    | none => cases goes
    | some change =>
      have plain : countCheck = false := read rfl
      subst plain
      refine read_after ?_ goes
      split
      · exact (refresh_refresh now seen).symm
      · rfl
  | requireSet seen row readAt name =>
    simp only [IdentityTask.leads] at goes
    split at goes
    · cases goes
      exact read
    · cases goes
  | update seen row readAt change => cases goes
  | force seen status mailFromStatus => cases goes
  | listed rows =>
    cases rows with
    | nil => cases goes
    | cons first rest =>
      cases goes
      trivial

theorem read_history {start final : IdentitySystem} {history : List IdentityEvent}
    (run : Run identityStep start history final) (idle : ∀ client, start.client client = none) :
    ∀ event ∈ history, Read (identityTaskOf event) := by
  refine fun event member => (tasks_invariant (fun _ => True) (fun _ => Read) run
    ⟨trivial, fun client task held => ?_⟩ (fun _ _ _ => trivial) ?_).2 event member |>.2.1
  · rw [idle client] at held
    cases held
  · intro event _ _ _ read
    exact ⟨trivial, fun next goes => read_leads read goes, fun _ _ _ _ kept => kept⟩

/-- **A fresh write does to the row what its request does as a whole.** -/
theorem pointOnIdentity_acts {event : IdentityEvent} (taken : event.Taken identityStep)
    (read : Read (identityTaskOf event)) (fresh : FreshIdentityWrite event) (identity : String) :
    match pointOnIdentity identity event with
    | none => event.after.shared.load identity = event.before.shared.load identity
    | some operation =>
      rowStep (event.before.shared.load identity) operation =
        (true, event.after.shared.load identity) := by
  have shared := (task_taken taken).1
  rw [← identityTaskOf] at shared
  unfold pointOnIdentity
  cases writes : (identityTaskOf event).writes event.input.2.call with
  | none =>
    simp only [IdentityTask.run, writes] at shared
    simp only
    rw [shared]
  | some written =>
    obtain ⟨seen, row⟩ := written
    have own := writes_identity (fun _ _ _ _ task => by rw [task] at read; exact read) writes
    have stored := fresh seen row writes
    simp only [IdentityTask.run, writes] at shared
    simp only
    by_cases here : seen.identity = identity
    · subst here
      have after : event.after.shared.load seen.identity = some row := by
        rw [shared, load_save, if_pos own, stored]
        rfl
      rw [if_pos rfl, after, stored]
      cases task : identityTaskOf event with
      | start request =>
        rw [task] at writes
        cases writes
      | requireSet loaded other readAt name =>
        rw [task] at writes
        cases writes
      | refresh loaded countCheck next =>
        rw [task] at writes
        simp only [IdentityTask.writes] at writes
        split at writes
        · cases writes
          rfl
        · cases writes
      | update loaded other readAt change =>
        rw [task] at writes read
        simp only [IdentityTask.writes] at writes
        split at writes
        · rename_i changed applied
          cases writes
          simp only [Read] at read
          rw [read] at applied
          simp only [IdentityTask.operation, rowStep, RowOperation.apply, applied]
        · cases writes
      | force loaded status mailFromStatus =>
        rw [task] at writes
        simp only [IdentityTask.writes] at writes
        split at writes
        · rename_i changed forced
          cases writes
          simp only [IdentityTask.operation, rowStep, RowOperation.apply, forced]
        · cases writes
      | listed rows =>
        rw [task] at writes
        cases rows with
        | nil => cases writes
        | cons first rest =>
          simp only [IdentityTask.writes] at writes
          split at writes
          · cases writes
            rfl
          · cases writes
    · rw [if_neg here]
      show event.after.shared.load identity = event.before.shared.load identity
      rw [shared, load_save, if_neg fun same => here (own.symm.trans same)]

/-! ### Counting reads -/

/-- A forced status, of the identity itself. -/
def RowOperation.Forces : RowOperation → Prop
  | .force (some _) _ _ => True
  | _ => False

/-- The operation is a counting read. -/
def RowOperation.counts : RowOperation → Bool
  | .read countCheck _ => countCheck
  | _ => false

/-- When the operation reads the identity, to move its verification on. -/
def RowOperation.readAt : RowOperation → Option Int
  | .read _ now => some now
  | .put _ readAt _ => some readAt
  | .force _ _ _ => none

/-- **What an operation makes of the verification**: it moves it on, or leaves it. -/
theorem apply_verification {operation : RowOperation} {row changed : SesIdentity}
    (done : operation.apply row = .ok changed) (unforced : ¬ operation.Forces) :
    changed.verification = match operation.readAt with
      | some now => (row.verification.advance operation.counts now).1
      | none => row.verification := by
  cases operation with
  | read countCheck now =>
    cases done
    rfl
  | put change readAt now => exact (apply_spec done).2
  | force status mailFromStatus now =>
    cases status with
    | none => exact (forced_spec done).2
    | some status => exact absurd trivial unforced

theorem rowStep_done {operation : RowOperation} {row : SesIdentity}
    (done : (rowStep (some row) operation).1 = true) :
    ∃ changed, operation.apply row = .ok changed ∧ (rowStep (some row) operation).2 = some changed := by
  unfold rowStep at done ⊢
  simp only at done ⊢
  cases applied : operation.apply row with
  | ok changed => exact ⟨changed, rfl, rfl⟩
  | error error =>
    rw [applied] at done
    cases done

/-- The verification does not move on by itself. -/
def Fixed (state : VerificationState) : Prop :=
  state.status ≠ PENDING ∨ state.mode = "manual"

/-- The verification waits for so many counting reads. -/
def Checking (state : VerificationState) (left : Nat) : Prop :=
  state.status = PENDING ∧ (state.mode = "after_checks" ∨ state.mode = "checks") ∧
    state.outcome ≠ PENDING ∧ state.checksLeft = left ∧ 0 < left

/-- The verification waits for a time. -/
def Waiting (state : VerificationState) (due : Int) : Prop :=
  state.status = PENDING ∧ state.mode = "delay" ∧ state.outcome ≠ PENDING ∧ state.verifyAt = some due

theorem Fixed.advance {state : VerificationState} (fixed : Fixed state) (countCheck : Bool)
    (now : Int) : (state.advance countCheck now).1 = state := by
  unfold VerificationState.advance
  rcases fixed with settled | manual
  · rw [if_pos settled]
  · by_cases pending : state.status = PENDING
    · simp [pending, manual]
    · rw [if_pos pending]

theorem Checking.advance {state : VerificationState} {left : Nat} (checking : Checking state left)
    (countCheck : Bool) (now : Int) :
    (countCheck = false ∧ (state.advance countCheck now).1 = state) ∨
    (countCheck = true ∧ left = 1 ∧ Fixed (state.advance countCheck now).1 ∧
      (state.advance countCheck now).1.status ≠ PENDING) ∨
    (countCheck = true ∧ Checking (state.advance countCheck now).1 (left - 1)) := by
  obtain ⟨pending, mode, outcome, count, positive⟩ := checking
  unfold VerificationState.advance
  rw [if_neg (not_not.mpr pending), if_pos mode, count]
  cases countCheck with
  | false =>
    left
    have some : left ≠ 0 := by omega
    simp only [Bool.false_eq_true, if_false, some]
    exact ⟨trivial, by rw [← count]⟩
  | true =>
    right
    simp only [if_true]
    by_cases last : left - 1 = 0
    · left
      simp only [if_pos last]
      exact ⟨trivial, by omega, Or.inl outcome, outcome⟩
    · right
      simp only [if_neg last]
      exact ⟨trivial, pending, mode, outcome, rfl, by omega⟩

theorem Waiting.advance {state : VerificationState} {due : Int} (waiting : Waiting state due)
    (countCheck : Bool) (now : Int) :
    (due ≤ now ∧ (state.advance countCheck now).1.status ≠ PENDING) ∨
    (now < due ∧ (state.advance countCheck now).1 = state) := by
  obtain ⟨pending, mode, outcome, time⟩ := waiting
  unfold VerificationState.advance
  rw [if_neg (not_not.mpr pending), if_neg (by rw [mode]; decide), time]
  by_cases late : due ≤ now
  · left
    rw [if_pos ⟨mode, by simp [late]⟩]
    exact ⟨late, outcome⟩
  · right
    rw [if_neg fun both => late (by simpa using both.2)]
    exact ⟨by omega, rfl⟩

/-- **A verification that is fixed stays**, until a status is forced. -/
theorem fixed_run {order : List RowOperation} : ∀ {row last : SesIdentity}, Fixed row.verification →
    (∀ operation ∈ order, ¬ operation.Forces) → Serializes rowStep (some row) order (some last) →
    last.verification = row.verification := by
  induction order with
  | nil =>
    rintro row last _ _ ⟨same, _⟩
    cases same
    rfl
  | cons operation rest ih =>
    intro row last fixed unforced serializes
    obtain ⟨done, others⟩ := serializes.first_done
    obtain ⟨changed, applied, after⟩ := rowStep_done done
    have moved := apply_verification applied (unforced _ (List.mem_cons_self ..))
    have same : changed.verification = row.verification := by
      rw [moved]
      split
      · exact fixed.advance _ _
      · rfl
    rw [after] at others
    rw [ih (same ▸ fixed) (fun other member => unforced other (List.mem_cons_of_mem _ member)) others,
      same]

/-- **The verification leaves PENDING at the read that is counted last.** -/
theorem checking_run {order : List RowOperation} : ∀ {row last : SesIdentity} {left : Nat},
    Checking row.verification left → (∀ operation ∈ order, ¬ operation.Forces) →
    Serializes rowStep (some row) order (some last) →
    (last.verification.status = PENDING ↔ order.countP RowOperation.counts < left) := by
  induction order with
  | nil =>
    rintro row last left ⟨pending, _, _, _, positive⟩ _ ⟨same, _⟩
    cases same
    simp [pending, positive]
  | cons operation rest ih =>
    intro row last left checking unforced serializes
    obtain ⟨done, others⟩ := serializes.first_done
    obtain ⟨changed, applied, after⟩ := rowStep_done done
    have moved := apply_verification applied (unforced _ (List.mem_cons_self ..))
    have unforcedRest : ∀ other ∈ rest, ¬ other.Forces :=
      fun other member => unforced other (List.mem_cons_of_mem _ member)
    rw [after] at others
    rw [List.countP_cons]
    cases reads : operation.readAt with
    | none =>
      have silent : operation.counts = false := by
        cases operation with
        | read countCheck now => cases reads
        | put change readAt now => cases reads
        | force status mailFromStatus now => rfl
      rw [reads] at moved
      simp only at moved
      rw [silent, ih (moved ▸ checking) unforcedRest others]
      simp
    | some now =>
      rw [reads] at moved
      simp only at moved
      rcases checking.advance operation.counts now with ⟨silent, same⟩ | ⟨counted, one, fixed, settled⟩ |
        ⟨counted, fewer⟩
      · rw [same] at moved
        rw [silent, ih (moved ▸ checking) unforcedRest others]
        simp
      · rw [← moved] at fixed settled
        rw [fixed_run fixed unforcedRest others, counted]
        simp only [if_true]
        exact ⟨fun pending => absurd pending settled, fun few => by omega⟩
      · rw [← moved] at fewer
        rw [counted, ih fewer unforcedRest others]
        simp only [if_true]
        have positive := checking.2.2.2.2
        omega

/-- **The verification leaves PENDING at the first read that is not too early.** -/
theorem waiting_run {order : List RowOperation} : ∀ {row last : SesIdentity} {due : Int},
    Waiting row.verification due → (∀ operation ∈ order, ¬ operation.Forces) →
    Serializes rowStep (some row) order (some last) →
    (last.verification.status = PENDING ↔
      ∀ operation ∈ order, ∀ now, operation.readAt = some now → now < due) := by
  induction order with
  | nil =>
    rintro row last due ⟨pending, _⟩ _ ⟨same, _⟩
    cases same
    simp [pending]
  | cons operation rest ih =>
    intro row last due waiting unforced serializes
    obtain ⟨done, others⟩ := serializes.first_done
    obtain ⟨changed, applied, after⟩ := rowStep_done done
    have moved := apply_verification applied (unforced _ (List.mem_cons_self ..))
    have unforcedRest : ∀ other ∈ rest, ¬ other.Forces :=
      fun other member => unforced other (List.mem_cons_of_mem _ member)
    rw [after] at others
    rw [List.forall_mem_cons]
    cases reads : operation.readAt with
    | none =>
      rw [reads] at moved
      simp only at moved
      rw [ih (moved ▸ waiting) unforcedRest others]
      simp
    | some now =>
      rw [reads] at moved
      simp only at moved
      rcases waiting.advance operation.counts now with ⟨late, settled⟩ | ⟨early, same⟩
      · rw [← moved] at settled
        rw [fixed_run (Or.inl settled) unforcedRest others]
        exact ⟨fun pending => absurd pending settled, fun both => absurd (both.1 now rfl) (not_lt.mpr late)⟩
      · rw [same] at moved
        rw [ih (moved ▸ waiting) unforcedRest others]
        simp [early]

theorem forced_fixed {now : Int} {status : String} {mailFromStatus : Option String}
    {row changed : SesIdentity} (done : row.forced now (some status) mailFromStatus = .ok changed) :
    Fixed changed.verification ∧ changed.verification.status = normalizeOutcome status := by
  rw [(forced_spec done).2]
  refine ⟨?_, rfl⟩
  by_cases pending : normalizeOutcome status = PENDING
  · exact Or.inr (if_pos pending)
  · exact Or.inl pending

/-! ### Runs -/

/-- **Updates of an identity are not lost.** In a run of fresh writes the row of an identity is that of
the writes as whole requests that succeed, one after the other; a forced status stays until another one
is forced; a verification by reads leaves PENDING exactly at the read that is counted last, and one by
time at the first read that is not too early. -/
theorem identity_updates {start final : IdentitySystem} {history : List IdentityEvent}
    (run : Run identityStep start history final) (idle : ∀ client, start.client client = none)
    (fresh : ∀ event ∈ history, FreshIdentityWrite event) (identity : String) :
    Serializes rowStep (start.shared.load identity)
      (history.filterMap (pointOnIdentity identity)) (final.shared.load identity) ∧
    (∀ before after status mailFromStatus now last,
      history.filterMap (pointOnIdentity identity) =
        before ++ .force (some status) mailFromStatus now :: after →
      (∀ operation ∈ after, ¬ operation.Forces) → final.shared.load identity = some last →
      last.verification.status = normalizeOutcome status) ∧
    ∀ first last, start.shared.load identity = some first → final.shared.load identity = some last →
      (∀ operation ∈ history.filterMap (pointOnIdentity identity), ¬ operation.Forces) →
      (∀ left, Checking first.verification left → (last.verification.status = PENDING ↔
        (history.filterMap (pointOnIdentity identity)).countP RowOperation.counts < left)) ∧
      ∀ due, Waiting first.verification due → (last.verification.status = PENDING ↔
        ∀ operation ∈ history.filterMap (pointOnIdentity identity), ∀ now,
          operation.readAt = some now → now < due) := by
  have read := read_history run idle
  have serial : Serializes rowStep (start.shared.load identity)
      (history.filterMap (pointOnIdentity identity)) (final.shared.load identity) := by
    refine Serializes.of_run (fun system : IdentitySystem => system.shared.load identity)
      (pointOnIdentity identity) run fun event member => ?_
    have acts := pointOnIdentity_acts (run.taken_of_mem event member) (read event member)
      (fresh event member) identity
    cases pointed : pointOnIdentity identity event with
    | none =>
      rw [pointed] at acts
      exact acts
    | some operation =>
      rw [pointed] at acts
      exact acts
  refine ⟨serial, ?_, ?_⟩
  · intro before after status mailFromStatus now last same unforced stored
    rw [same, stored] at serial
    obtain ⟨middle, _, rest⟩ := serial.split
    obtain ⟨done, others⟩ := rest.first_done
    cases middle with
    | none => cases done
    | some row =>
      obtain ⟨changed, applied, afterForce⟩ := rowStep_done done
      obtain ⟨fixed, forced⟩ := forced_fixed applied
      rw [afterForce] at others
      rw [fixed_run fixed unforced others]
      exact forced
  · intro first last begins ends unforced
    rw [begins, ends] at serial
    exact ⟨fun left checking => checking_run checking unforced serial,
      fun due waiting => waiting_run waiting unforced serial⟩

end Rules

/-! ### A forced status that is lost -/

section Sample

/-- Everything is verified at once. -/
@[reducible]
def VerificationRules.sample : VerificationRules where
  ruleFor _ := { mode := "auto", checks := 0, delaySeconds := 0, outcome := "SUCCESS" }

attribute [local instance] VerificationRules.sample

/-- An identity that is verified by two counting reads. -/
def pendingRow : SesIdentity where
  identity := "example.com"
  verification := { status := PENDING, mode := "after_checks", outcome := SUCCESS, checksLeft := 2,
                    verifyAt := none }
  dkimSigningEnabled := true
  mailFromDomain := none
  mailFromBehavior := "USE_DEFAULT_VALUE"
  mailFrom := .none
  feedbackForwarding := true
  configurationSet := none
  lastCheckedAt := none
  lastSuccessAt := none

def pendingSystem : IdentitySystem where
  shared := { identities := [pendingRow], configurationSets := [] }
  client _ := none

def identityTurns (client calls : Nat) (request : IdentityRequest) :
    List (Nat × Turn Int IdentityRequest) :=
  List.replicate calls (client, { call := 0, request })

/-- Two clients read the identity, one after the other. -/
def readTurns : List (Nat × Turn Int IdentityRequest) :=
  identityTurns 0 2 (.getIdentity "example.com" true) ++ identityTurns 1 2 (.getIdentity "example.com" true)

/-- The second counting read ends the verification. -/
theorem identity_updates_sample :
    ((Run.final identityStep pendingSystem readTurns).shared.load "example.com").isSome ∧
    ∀ last, (Run.final identityStep pendingSystem readTurns).shared.load "example.com" = some last →
      last.verification.status ≠ PENDING := by
  have fresh : ∀ event ∈ Run.trace identityStep pendingSystem readTurns, FreshIdentityWrite event := by
    have second : ∀ event ∈ (Run.trace identityStep pendingSystem readTurns)[3]?,
        FreshIdentityWrite event := by
      rintro event ⟨⟩ seen row ⟨⟩
      rfl
    intro event member
    simp only [readTurns, identityTurns, List.replicate, List.cons_append, List.nil_append, Run.trace,
      List.mem_cons, List.not_mem_nil, or_false] at member
    rcases member with rfl | rfl | rfl | rfl
    · exact fun _ _ => nofun
    · rintro seen row ⟨⟩
      rfl
    · exact fun _ _ => nofun
    · exact second _ rfl
  have updates := identity_updates (Run.of_trace identityStep readTurns pendingSystem)
    (fun _ => rfl) fresh "example.com"
  refine ⟨by decide, fun last stored pending => ?_⟩
  have checking : Checking pendingRow.verification 2 :=
    ⟨rfl, Or.inl rfl, by decide, rfl, by decide⟩
  have reads : (Run.trace identityStep pendingSystem readTurns).filterMap
      (pointOnIdentity "example.com") = [.read true 0, .read true 0] := rfl
  have counted := (updates.2.2 pendingRow last rfl stored ?_).1 2 checking
  · rw [reads] at counted
    exact absurd (counted.mp pending) (by decide)
  · intro operation member
    rw [reads] at member
    rcases List.mem_pair.mp member with rfl | rfl
    · exact id
    · exact id

/-- A setting is read before a status is forced, and written after it. -/
def overwrittenTurns : List (Nat × Turn Int IdentityRequest) :=
  identityTurns 0 2 (.put "example.com" (.feedbackForwarding false)) ++
    identityTurns 1 2 (.setVerification "example.com" (some "SUCCESS") none) ++
    identityTurns 0 1 (.put "example.com" (.feedbackForwarding false))

/-- **The forced status is lost**: both requests succeed, and no order of them leaves the row. -/
theorem forced_status_lost : ∃ history final, Run identityStep pendingSystem history final ∧
    (history.filterMap fun event => event.output.map Except.toBool) = [true, true] ∧
    ∀ order, order.Perm [.put (.feedbackForwarding false) 0 0, .force (some "SUCCESS") none 0] →
      ¬ Serializes rowStep (some pendingRow) order (final.shared.load "example.com") := by
  refine ⟨_, _, Run.of_trace identityStep overwrittenTurns pendingSystem, rfl, ?_⟩
  rintro order permuted ⟨same, _⟩
  have forced : ∀ order ∈ List.permutations' [RowOperation.put (.feedbackForwarding false) 0 0,
      .force (some "SUCCESS") none 0],
      ((Run.final rowStep (some pendingRow) order).map fun row => row.verification.status) =
        some SUCCESS := by decide
  have lost : (((Run.final identityStep pendingSystem overwrittenTurns).shared.load
      "example.com").map fun row => row.verification.status) = some PENDING := by decide
  rw [same, forced order (List.mem_permutations'.mpr permuted)] at lost
  exact absurd lost (by decide)

end Sample

end CloudTwin.Ses
