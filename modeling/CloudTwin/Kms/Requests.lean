/-
**KMS requests** (`aws/kms/handlers.rs`, `service.rs`).

A request is a sequence of calls on the database, and other requests' calls can come between any two
of them. The first call purges the keys whose deletion date has passed. Then the key is resolved, in
one call or two, and what the request makes of the key is written back in a call of its own.

* `Change` — the requests that change a key, and `Change.apply`, what they make of it.
* `Task` — the call that a request makes next.
* `kmsStep` — the step of a client; `kms_taken_shared` and `kms_taken_task` say what it can do.
-/

import CloudTwin.Kms.Models
import CloudTwin.Lib.Machine

namespace CloudTwin.Kms

open Lib Lib.Text

set_option linter.unusedSectionVars false

/-! ### Changes of a key -/

inductive Change where
  | setEnabled (enabled : Bool)
  | scheduleDeletion (days : Option Int)
  | cancelDeletion
  | setRotation (enabled : Bool) (period : Option Int)
  | updateDescription (description : String)
  | tag (tags : List (String × String))
  | untag (tagKeys : List String)
  | putPolicy (policyName policy : String)

def requireDefaultPolicyName (name : String) : KmsResult Unit :=
  rejectIf (name ≠ "default") (.notFound ("No such policy exists: " ++ name))

def windowError (days : Int) : KmsError :=
  .validation ("1 validation error detected: Value '" ++ toString days ++
    "' at 'pendingWindowInDays' failed to satisfy constraint: " ++
    "Member must have value between 7 and 30")

/-- The date of a deletion in so many days, in whole seconds. -/
def deletionDateOf (now days : Int) : Int :=
  (now + days * 86400000) / 1000 * 1000

/-- The loop over the tags of `TagResource`. -/
def applyTags : List (String × String) → List (String × String) →
    KmsResult (List (String × String))
  | tags, [] => .ok tags
  | tags, tag :: rest =>
    if tag.1.isEmpty ∨ 128 < (utf8 tag.1).length ∨ 256 < (utf8 tag.2).length then
      .error (.validation ("Invalid tag: " ++ tag.1))
    else applyTags (setTag tags tag) rest

section External

variable [External]

/-- What is checked before the key is resolved. -/
def Change.precheck : Change → KmsResult Unit
  | .scheduleDeletion days =>
    rejectIf (¬ (7 ≤ days.getD 30 ∧ days.getD 30 ≤ 30)) (windowError (days.getD 30))
  | .updateDescription description =>
    rejectIf (8192 < (utf8 description).length) descriptionTooLong
  | .putPolicy policyName policy => do
    requireDefaultPolicyName policyName
    validatePolicy policy
  | _ => .ok ()

/-- What the request makes of the key that it resolved. -/
def Change.apply (change : Change) (now : Int) (key : KmsKey) : KmsResult KmsKey :=
  match change with
  | .setEnabled enabled => do
    requireNotPending key
    return { key with keyState := if enabled then .enabled else .disabled }
  | .scheduleDeletion days => do
    requireNotPending key
    return { key with
      keyState := .pendingDeletion
      deletionDate := some (deletionDateOf now (days.getD 30))
      pendingWindowDays := some (days.getD 30) }
  | .cancelDeletion => do
    rejectIf (key.keyState ≠ .pendingDeletion)
      (.invalidState (key.arn ++ " is not pending deletion (current state: " ++
        key.keyState.text ++ ")."))
    return { key with keyState := .disabled, deletionDate := none, pendingWindowDays := none }
  | .setRotation enabled period => do
    requireEnabled key
    rejectIf (key.isSymmetric = false)
      (.unsupported (key.arn ++ " does not support automatic key rotation."))
    rejectIf (period.any fun period => ¬ (90 ≤ period ∧ period ≤ 2560))
      (.validation "RotationPeriodInDays must be between 90 and 2560")
    return { key with
      rotationPeriodDays := period.getD key.rotationPeriodDays
      rotationEnabled := enabled }
  | .updateDescription description => do
    requireNotPending key
    return { key with description := description }
  | .tag tags => do
    requireNotPending key
    let tags ← applyTags key.tags tags
    rejectIf (50 < tags.length) (.validation "A key can have at most 50 tags")
    return { key with tags := tags }
  | .untag tagKeys => do
    requireNotPending key
    return { key with tags := key.tags.filter fun tag => !tagKeys.contains tag.1 }
  | .putPolicy _ policy => do
    requireNotPending key
    return { key with policy := policy }

/-! ### Requests -/

inductive Request where
  | change (keyRef : String) (change : Change)
  | createKey (input : CreateKeyInput)
  | createAlias (name targetRef : String)
  | updateAlias (name targetRef : String)
  | deleteAlias (name : String)
  /-- A request that only reads. -/
  | read

/-- What a request wants with the key that it resolves. -/
inductive Goal where
  | change (change : Change)
  | createAlias (name : String)
  | updateAlias (row : KmsAlias)

/-- **The call that a request makes next.** -/
inductive Task where
  /-- `get_alias` of the alias to update. -/
  | ownAlias (name targetRef : String)
  /-- `get_alias` of the reference. -/
  | lookup (goal : Goal) (name : String)
  /-- `load_key`; `via` is the alias that led to it. -/
  | load (goal : Goal) (id : String) (via : Option String)
  /-- `save`, of a key that was loaded as `loaded` at the time. -/
  | save (change : Change) (time : Int) (loaded key : KmsKey)
  | insertKey (key : KmsKey)
  | insertAlias (row : KmsAlias)
  | moveAlias (row : KmsAlias)
  | removeAlias (name : String)

/-- `resolve`, up to its first call. -/
def resolveTask (goal : Goal) (keyRef : String) : KmsResult Task := do
  match ← parseKeyRef keyRef with
  | .id id => return .load goal id none
  | .alias name => return .lookup goal name

/-- What a request does between the purge and its next call; `none` when it makes no other. -/
def beginTask (request : Request) (drawn : Drawn) (now : Int) : KmsResult (Option Task) :=
  match request with
  | .change keyRef change => do
    change.precheck
    return some (← resolveTask (.change change) keyRef)
  | .createKey input => do
    return some (.insertKey (← buildKey input drawn now))
  | .createAlias name targetRef => do
    validateAliasName name
    return some (← resolveTask (.createAlias name) targetRef)
  | .updateAlias name targetRef => do
    validateAliasName name
    return some (.ownAlias name targetRef)
  | .deleteAlias name => do
    rejectIf (startsWith name "alias/" = false) (aliasPrefixError name)
    return some (.removeAlias name)
  | .read => .ok none

/-- What a request does with the key that it loaded, up to its write. -/
def reachGoal (goal : Goal) (now : Int) (key : KmsKey) : KmsResult Task :=
  match goal with
  | .change change => do
    return .save change now key (← change.apply now key)
  | .createAlias name => do
    requireNotPending key
    return .insertAlias { name := name, targetKeyId := key.id, createdAt := now, updatedAt := now }
  | .updateAlias row => do
    requireNotPending key
    return .moveAlias { row with targetKeyId := key.id, updatedAt := now }

/-- What comes of a call: the request goes on, or ends with a result. -/
inductive Progress where
  | continues (task : Task)
  | ends (result : KmsResult Unit)

def Progress.of (result : KmsResult Task) : Progress :=
  match result with
  | .ok task => .continues task
  | .error error => .ends (.error error)

/-- A write that a taken name or a missing row makes fail. -/
def writeOr (store : Store) (written : Option Store) (error : KmsError) : Progress × Store :=
  match written with
  | some after => (.ends (.ok ()), after)
  | none => (.ends (.error error), store)

/-- **The next call of a request.** -/
def Task.run (task : Task) (now : Int) (store : Store) : Progress × Store :=
  match task with
  | .ownAlias name targetRef =>
    (match getAlias store name with
      | some row => .of (resolveTask (.updateAlias row) targetRef)
      | none => .ends (.error (notFoundAlias name)), store)
  | .lookup goal name =>
    (match getAlias store name with
      | some row => .continues (.load goal row.targetKeyId (some name))
      | none => .ends (.error (notFoundAlias name)), store)
  | .load goal id via =>
    (match loadKey store id with
      | some key => .of (reachGoal goal now key)
      | none => .ends (.error (via.elim (notFoundKey id) notFoundAlias)), store)
  | .save _ _ _ key => (.ends (.ok ()), Kms.save store key)
  | .insertKey key =>
    writeOr store (Kms.insertKey store key)
      (.alreadyExists ("Key " ++ key.arn ++ " already exists"))
  | .insertAlias row =>
    writeOr store (Kms.insertAlias store row)
      (.alreadyExists ("An alias with the name " ++ aliasArn row.name ++ " already exists"))
  | .moveAlias row => (.ends (.ok ()), Kms.moveAlias store row)
  | .removeAlias name => writeOr store (Kms.removeAlias store name) (notFoundAlias name)

/-! ### Clients -/

/-- A turn of a client: the time, and the request that it begins when it has none. -/
structure Turn where
  now : Int
  request : Request
  drawn : Drawn

/-- **The step of a client**: the next call of its request, or the first call of a new one. The
output is the result of a request that ends. -/
def kmsStep (store : Store) (client : Option Task) (turn : Turn) :
    Option (KmsResult Unit) × Store × Option Task :=
  match client with
  | some task =>
    match task.run turn.now store with
    | (.continues next, after) => (none, after, some next)
    | (.ends result, after) => (some result, after, none)
  | none =>
    match beginTask turn.request turn.drawn turn.now with
    | .ok (some task) => (none, purgeExpired store turn.now, some task)
    | .ok none => (some (.ok ()), purgeExpired store turn.now, none)
    | .error error => (some (.error error), purgeExpired store turn.now, none)

abbrev KmsSystem := System Store (Option Task)

abbrev KmsEvent := Event KmsSystem (Nat × Turn) (Option (KmsResult Unit))

/-- No keys, no aliases, and no request under way. -/
def KmsSystem.empty : KmsSystem where
  shared := Store.empty
  client _ := none

/-- **A run of KMS requests**: any number of clients, their calls in any order. -/
abbrev KmsRun (history : List KmsEvent) (final : KmsSystem) : Prop :=
  Run (System.step kmsStep) KmsSystem.empty history final

/-- The call that the event's client was to make. -/
def taskOf (event : KmsEvent) : Option Task :=
  event.before.client event.input.1

/-! ### What a step can do -/

theorem resolveTask_ok {goal : Goal} {keyRef : String} {task : Task}
    (done : resolveTask goal keyRef = .ok task) :
    (∃ id, task = .load goal id none) ∨ ∃ name, task = .lookup goal name := by
  obtain ⟨parsed, _, done⟩ := bind_ok done
  rcases parsed with id | name
  · exact Or.inl ⟨id, (Except.ok.inj done).symm⟩
  · exact Or.inr ⟨name, (Except.ok.inj done).symm⟩

theorem Progress.of_continues {result : KmsResult Task} {next : Task}
    (goes : Progress.of result = .continues next) : result = .ok next := by
  cases result with
  | error error => cases goes
  | ok task =>
    injection goes with goes
    rw [goes]

@[simp] theorem writeOr_store (store : Store) (written : Option Store) (error : KmsError) :
    (writeOr store written error).2 = written.getD store := by
  cases written with
  | none => rfl
  | some after => rfl

/-- **What a step does to the store**: the purge of a new request, or the call of one under way. -/
theorem kms_taken_shared {event : KmsEvent} (taken : event.Taken (System.step kmsStep)) :
    event.after.shared =
      match taskOf event with
      | none => purgeExpired event.before.shared event.input.2.now
      | some task => (task.run event.input.2.now event.before.shared).2 := by
  have step := (System.taken_advance taken).1
  unfold taskOf
  cases client : event.before.client event.input.1 with
  | none =>
    rw [client] at step
    simp only [kmsStep] at step
    split at step
    all_goals exact ((Prod.mk.inj (Prod.mk.inj step).2).1).symm
  | some task =>
    rw [client] at step
    simp only [kmsStep] at step
    split at step
    all_goals
      rename_i ran
      simp only [ran]
      exact ((Prod.mk.inj (Prod.mk.inj step).2).1).symm

/-- **Where the task of a client comes from**: it had it, or its step led to it. -/
theorem kms_taken_task {event : KmsEvent} (taken : event.Taken (System.step kmsStep))
    {client : Nat} {next : Task} (holds : event.after.client client = some next) :
    event.before.client client = some next ∨
    (∃ task, taskOf event = some task ∧
      (task.run event.input.2.now event.before.shared).1 = .continues next) ∨
    beginTask event.input.2.request event.input.2.drawn event.input.2.now = .ok (some next) := by
  obtain ⟨step, others⟩ := System.taken_advance taken
  by_cases same : client = event.input.1
  · subst same
    cases before : event.before.client event.input.1 with
    | none =>
      rw [before, holds] at step
      simp only [kmsStep] at step
      split at step
      · rename_i task begun
        have equal := (Prod.mk.inj (Prod.mk.inj step).2).2
        rw [begun, equal]
        exact Or.inr (Or.inr rfl)
      · exact absurd (Prod.mk.inj (Prod.mk.inj step).2).2 nofun
      · exact absurd (Prod.mk.inj (Prod.mk.inj step).2).2 nofun
    | some task =>
      rw [before, holds] at step
      simp only [kmsStep] at step
      split at step
      · rename_i further after ran
        have equal := (Prod.mk.inj (Prod.mk.inj step).2).2
        injection equal with equal
        rw [equal] at ran
        exact Or.inr (Or.inl ⟨task, before, by rw [ran]⟩)
      · exact absurd (Prod.mk.inj (Prod.mk.inj step).2).2 nofun
  · rw [others client same] at holds
    exact Or.inl holds

end External

end CloudTwin.Kms
