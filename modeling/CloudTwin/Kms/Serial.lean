/-
**Concurrent changes of a key.**

Every request that changes a key loads the row in one call and writes all its mutable columns back
in another. Whatever another request wrote in between is overwritten.

* `Change.reads` — what a request goes by: the row, but for the columns that it sets blindly.
* `FreshSave` — what the request goes by is still so when it writes.
* `Serializes` — an order of whole changes that all succeed and leave the row.
* `key_changes_serial` — in a run of fresh writes, the order of the writes serializes the row of
  every key, and no plain change touches the state or the date of the deletion.
* `disable_lost` — a tag that was read before the key was disabled enables it again.
-/

import CloudTwin.Kms.Lifecycle
import CloudTwin.Lib.Serial
import Mathlib.Data.List.Permutation

namespace CloudTwin.Kms

open Lib Lib.Text

set_option linter.unusedSectionVars false

section External

variable [External]

/-! ### What a request goes by -/

/-- The row, but for the columns that the request sets whatever they are. -/
def Change.reads (change : Change) (key : KmsKey) : KmsKey :=
  let live := if key.keyState = .pendingDeletion then KeyState.pendingDeletion else .enabled
  match change with
  | .setEnabled _ => { key with keyState := live }
  | .scheduleDeletion _ => { key with keyState := live }
  | .cancelDeletion => { key with deletionDate := none, pendingWindowDays := none }
  | .setRotation _ period =>
    { key with
      rotationEnabled := false
      rotationPeriodDays := if period.isSome then 0 else key.rotationPeriodDays }
  | .updateDescription _ => { key with description := "" }
  | .putPolicy _ _ => { key with policy := "" }
  | .tag _ => key
  | .untag _ => key

/-- **What the request goes by is still so** when it writes the key. -/
def FreshSave (event : KmsEvent) : Prop :=
  ∀ change time loaded key, taskOf event = some (.save change time loaded key) →
    ∃ row, loadKey event.before.shared loaded.id = some row ∧
      change.reads row = change.reads loaded

theorem rejectIf_bind {ε β : Type} {condition other : Prop} [Decidable condition]
    [Decidable other] {error reason : ε} {value : Unit} {rest : Unit → Except ε β}
    {result : Except ε β} (passed : rejectIf other reason = .ok value) (same : condition → other)
    (next : rest () = result) : (rejectIf condition error >>= rest) = result :=
  ok_bind (rejectIf_ok.mpr (mt same (rejectIf_ok.mp passed))) next

theorem live_same {state other : KeyState}
    (same : (if state = .pendingDeletion then KeyState.pendingDeletion else .enabled) =
      if other = .pendingDeletion then KeyState.pendingDeletion else .enabled) :
    state = .pendingDeletion ↔ other = .pendingDeletion := by
  by_cases pending : state = .pendingDeletion
  · by_cases pendingToo : other = .pendingDeletion
    · simp [pending, pendingToo]
    · simp [pending, pendingToo] at same
  · by_cases pendingToo : other = .pendingDeletion
    · simp [pending, pendingToo] at same
    · simp [pending, pendingToo]

theorem requireNotPending_same {row loaded : KmsKey}
    (same : (row.keyState = .pendingDeletion) ↔ (loaded.keyState = .pendingDeletion))
    (done : requireNotPending loaded = .ok ()) : requireNotPending row = .ok () :=
  rejectIf_ok.mpr (mt same.mp (rejectIf_ok.mp done))

/-- **A request that goes by the row as it is makes of it what it writes.** -/
theorem Change.apply_fresh {change : Change} {now : Int} {row loaded key : KmsKey}
    (same : change.reads row = change.reads loaded) (done : change.apply now loaded = .ok key) :
    change.apply now row = .ok (row.written key) := by
  rcases row with ⟨id, description, usage, spec, origin, state, created, date, window, material,
    rotation, period, policy, tags, region⟩
  rcases loaded with ⟨id', description', usage', spec', origin', state', created', date', window',
    material', rotation', period', policy', tags', region'⟩
  cases change with
  | setEnabled enabled =>
    simp only [Change.reads, KmsKey.mk.injEq] at same
    obtain ⟨rfl, rfl, rfl, rfl, rfl, states, rfl, rfl, rfl, rfl, rfl, rfl, rfl, rfl, rfl⟩ := same
    obtain ⟨_, live, done⟩ := bind_ok done
    cases done
    exact ok_bind (requireNotPending_same (live_same states) live) rfl
  | scheduleDeletion days =>
    simp only [Change.reads, KmsKey.mk.injEq] at same
    obtain ⟨rfl, rfl, rfl, rfl, rfl, states, rfl, rfl, rfl, rfl, rfl, rfl, rfl, rfl, rfl⟩ := same
    obtain ⟨_, live, done⟩ := bind_ok done
    cases done
    exact ok_bind (requireNotPending_same (live_same states) live) rfl
  | cancelDeletion =>
    simp only [Change.reads, KmsKey.mk.injEq] at same
    obtain ⟨rfl, rfl, rfl, rfl, rfl, rfl, rfl, _, _, rfl, rfl, rfl, rfl, rfl, rfl⟩ := same
    obtain ⟨_, pending, done⟩ := bind_ok done
    cases done
    exact rejectIf_bind pending (fun wrong => wrong) rfl
  | setRotation enabled given =>
    simp only [Change.reads, KmsKey.mk.injEq] at same
    obtain ⟨rfl, rfl, rfl, rfl, rfl, rfl, rfl, rfl, rfl, rfl, _, periods, rfl, rfl, rfl⟩ := same
    obtain ⟨_, live, done⟩ := bind_ok done
    obtain ⟨_, symmetric, done⟩ := bind_ok done
    obtain ⟨_, range, done⟩ := bind_ok done
    cases done
    refine ok_bind live (rejectIf_bind symmetric (fun wrong => wrong)
      (rejectIf_bind range (fun wrong => wrong) ?_))
    cases given with
    | some given => rfl
    | none =>
      simp only [Option.isSome_none, Bool.false_eq_true, if_false] at periods
      subst periods
      rfl
  | updateDescription text =>
    simp only [Change.reads, KmsKey.mk.injEq] at same
    obtain ⟨rfl, _, rfl, rfl, rfl, rfl, rfl, rfl, rfl, rfl, rfl, rfl, rfl, rfl, rfl⟩ := same
    obtain ⟨_, live, done⟩ := bind_ok done
    cases done
    exact ok_bind (requireNotPending_same Iff.rfl live) rfl
  | putPolicy policyName text =>
    simp only [Change.reads, KmsKey.mk.injEq] at same
    obtain ⟨rfl, rfl, rfl, rfl, rfl, rfl, rfl, rfl, rfl, rfl, rfl, rfl, _, rfl, rfl⟩ := same
    obtain ⟨_, live, done⟩ := bind_ok done
    cases done
    exact ok_bind (requireNotPending_same Iff.rfl live) rfl
  | tag added =>
    simp only [Change.reads, KmsKey.mk.injEq] at same
    obtain ⟨rfl, rfl, rfl, rfl, rfl, rfl, rfl, rfl, rfl, rfl, rfl, rfl, rfl, rfl, rfl⟩ := same
    obtain ⟨_, live, done⟩ := bind_ok done
    obtain ⟨merged, applied, done⟩ := bind_ok done
    obtain ⟨_, few, done⟩ := bind_ok done
    cases done
    exact ok_bind live (ok_bind applied (ok_bind few rfl))
  | untag removed =>
    simp only [Change.reads, KmsKey.mk.injEq] at same
    obtain ⟨rfl, rfl, rfl, rfl, rfl, rfl, rfl, rfl, rfl, rfl, rfl, rfl, rfl, rfl, rfl⟩ := same
    obtain ⟨_, live, done⟩ := bind_ok done
    cases done
    exact ok_bind live rfl

/-- A change of the tags, the description, the policy or the rotation. -/
def Change.IsPlain : Change → Prop
  | .setRotation _ _ => True
  | .updateDescription _ => True
  | .tag _ => True
  | .untag _ => True
  | .putPolicy _ _ => True
  | _ => False

theorem Change.apply_plain {change : Change} {now : Int} {key changed : KmsKey}
    (plain : change.IsPlain) (done : change.apply now key = .ok changed) :
    changed.keyState = key.keyState ∧ changed.deletionDate = key.deletionDate := by
  cases change with
  | setRotation enabled period =>
    obtain ⟨_, _, done⟩ := bind_ok done
    obtain ⟨_, _, done⟩ := bind_ok done
    obtain ⟨_, _, done⟩ := bind_ok done
    cases done
    exact ⟨rfl, rfl⟩
  | tag tags =>
    obtain ⟨_, _, done⟩ := bind_ok done
    obtain ⟨_, _, done⟩ := bind_ok done
    obtain ⟨_, _, done⟩ := bind_ok done
    cases done
    exact ⟨rfl, rfl⟩
  | updateDescription description =>
    obtain ⟨_, _, done⟩ := bind_ok done
    cases done
    exact ⟨rfl, rfl⟩
  | untag tagKeys =>
    obtain ⟨_, _, done⟩ := bind_ok done
    cases done
    exact ⟨rfl, rfl⟩
  | putPolicy policyName policy =>
    obtain ⟨_, _, done⟩ := bind_ok done
    cases done
    exact ⟨rfl, rfl⟩
  | setEnabled enabled => exact plain.elim
  | scheduleDeletion days => exact plain.elim
  | cancelDeletion => exact plain.elim

/-! ### One row -/

theorem loadKey_eq_some {store : Store} (orderly : Orderly store) {id : String} {key : KmsKey} :
    loadKey store id = some key ↔ key ∈ store.keys ∧ key.id = id := by
  refine ⟨loadKey_mem, fun ⟨member, same⟩ => ?_⟩
  cases found : loadKey store id with
  | none => exact absurd (List.mem_map.mpr ⟨key, member, same⟩) (loadKey_none (by simp [found]))
  | some other =>
    obtain ⟨there, sameOther⟩ := loadKey_mem found
    rw [List.inj_on_of_nodup_map orderly.distinct there member (sameOther.trans same.symm)]

theorem loadKey_purgeExpired {store : Store} (orderly : Orderly store) (now : Int) (id : String) :
    loadKey (purgeExpired store now) id =
      (loadKey store id).filter fun key => !key.isExpired now := by
  ext key
  rw [loadKey_eq_some (purgeExpired_orderly orderly), mem_purgeExpired, Option.filter_eq_some_iff,
    loadKey_eq_some orderly, Bool.not_eq_true']
  exact and_right_comm

theorem loadKey_save (store : Store) (key : KmsKey) (id : String) :
    loadKey (save store key) id =
      if key.id = id then (loadKey store id).map fun row => row.written key
      else loadKey store id := by
  have same : ((fun row : KmsKey => row.id == id) ∘ fun row : KmsKey =>
      if row.id = key.id then row.written key else row) = fun row => row.id == id := by
    funext row
    simp only [Function.comp_apply]
    split
    · rfl
    · rfl
  show (store.keys.map _).find? _ = _
  rw [List.find?_map, same]
  show (loadKey store id).map _ = _
  cases found : loadKey store id with
  | none => split <;> rfl
  | some row =>
    obtain ⟨_, rfl⟩ := loadKey_mem found
    by_cases here : row.id = key.id
    · simp [here]
    · simp [here, Ne.symm here]

theorem loadKey_insertKey (store : Store) (key : KmsKey) (id : String) :
    loadKey ((insertKey store key).getD store) id =
      if key.id = id then some ((loadKey store id).getD key) else loadKey store id := by
  unfold insertKey
  by_cases taken : (loadKey store key.id).isSome = true
  · rw [if_pos taken]
    by_cases here : key.id = id
    · subst here
      rw [if_pos rfl]
      obtain ⟨row, found⟩ := Option.isSome_iff_exists.mp taken
      show loadKey store key.id = _
      rw [found]
      rfl
    · rw [if_neg here]
      rfl
  · rw [if_neg taken]
    show (store.keys ++ [key]).find? _ = _
    rw [List.find?_append]
    show (loadKey store id).or _ = _
    by_cases here : key.id = id
    · subst here
      rw [if_pos rfl, Option.not_isSome_iff_eq_none.mp taken]
      simp
    · rw [if_neg here]
      simp [here]

/-! ### Whole changes, one after the other -/

/-- What happens to the row of a key. -/
inductive KeyOperation where
  | purge (now : Int)
  | create (key : KmsKey)
  | change (change : Change) (now : Int)

/-- **An operation on the row**, and whether it succeeds. -/
def keyStep (row : Option KmsKey) (operation : KeyOperation) : Bool × Option KmsKey :=
  match operation with
  | .purge now => (true, row.filter fun key => !key.isExpired now)
  | .create key => (row.isNone, some (row.getD key))
  | .change change now =>
    match row with
    | none => (false, none)
    | some key =>
      match change.apply now key with
      | .ok changed => (true, some changed)
      | .error _ => (false, some key)

/-- The operations all succeed, and leave the row. -/
def Serializes (order : List KeyOperation) (row : Option KmsKey) : Prop :=
  Lib.Serializes keyStep none order row

instance (order : List KeyOperation) (row : Option KmsKey) : Decidable (Serializes order row) :=
  inferInstanceAs (Decidable (_ ∧ _))

/-- What the step does to the key: a write is the request that succeeds with it. -/
def pointOn (id : String) (event : KmsEvent) : Option KeyOperation :=
  match taskOf event with
  | none => some (.purge event.input.2.now)
  | some (.save change time loaded _) =>
    if loaded.id = id then some (.change change time) else none
  | some (.insertKey key) =>
    if key.id = id ∧ (loadKey event.before.shared id).isNone then some (.create key) else none
  | _ => none

/-- **A step does to the row what its operation does.** -/
theorem pointOn_acts {event : KmsEvent} (taken : event.Taken (System.step kmsStep))
    (consistent : Consistent event.before) (fresh : FreshSave event) (id : String) :
    match pointOn id event with
    | none => loadKey event.after.shared id = loadKey event.before.shared id
    | some operation =>
      keyStep (loadKey event.before.shared id) operation =
        (true, loadKey event.after.shared id) := by
  have shared := kms_taken_shared taken
  unfold pointOn
  cases running : taskOf event with
  | none =>
    rw [running] at shared
    simp only
    rw [shared, loadKey_purgeExpired consistent.1]
    rfl
  | some task =>
    rw [running] at shared
    simp only at shared
    rw [shared]
    cases task with
    | save change time loaded key =>
      obtain ⟨dated, applied⟩ := consistent.2 _ _ running
      obtain ⟨row, found, same⟩ := fresh change time loaded key running
      have sameId : key.id = loaded.id := (change.apply_dated applied dated).2.1
      simp only [Task.run]
      rw [loadKey_save, sameId]
      by_cases here : loaded.id = id
      · subst here
        simp only [if_true]
        rw [found, keyStep, change.apply_fresh same applied]
        rfl
      · simp only [if_neg here]
    | insertKey key =>
      simp only [Task.run, writeOr_store]
      rw [loadKey_insertKey]
      by_cases here : key.id = id
      · subst here
        cases found : loadKey event.before.shared key.id with
        | none => simp [keyStep]
        | some row => simp
      · simp only [here, false_and, if_false]
    | insertAlias row =>
      simp only [Task.run, writeOr_store, Kms.insertAlias]
      split
      all_goals rfl
    | removeAlias name =>
      simp only [Task.run, writeOr_store, Kms.removeAlias]
      split
      all_goals rfl
    | _ => rfl

/-- The row of every key is what the operations leave, in the order of the steps. -/
theorem serializes_run {history : List KmsEvent} {final : KmsSystem} (run : KmsRun history final)
    (fresh : ∀ event ∈ history, FreshSave event) (id : String) :
    Serializes (history.filterMap (pointOn id)) (loadKey final.shared id) := by
  refine Lib.Serializes.of_run (fun system : KmsSystem => loadKey system.shared id) (pointOn id) run
    fun event member => ?_
  have acts := pointOn_acts (run.taken_of_mem event member) ((consistent_run run).2 event member)
    (fresh event member) id
  cases point : pointOn id event with
  | none =>
    rw [point] at acts
    exact acts
  | some operation =>
    rw [point] at acts
    exact acts

/-- A plain change leaves the state and the date of the deletion as they are. -/
def Steady (event : KmsEvent) : Prop :=
  ∀ change time loaded key, taskOf event = some (.save change time loaded key) → change.IsPlain →
    ∃ row after, loadKey event.before.shared loaded.id = some row ∧
      loadKey event.after.shared loaded.id = some after ∧
      after.keyState = row.keyState ∧ after.deletionDate = row.deletionDate

theorem steady_taken {event : KmsEvent} (taken : event.Taken (System.step kmsStep))
    (consistent : Consistent event.before) (fresh : FreshSave event) : Steady event := by
  intro change time loaded key running plain
  obtain ⟨dated, applied⟩ := consistent.2 _ _ running
  obtain ⟨row, found, same⟩ := fresh change time loaded key running
  have changed := change.apply_fresh same applied
  obtain ⟨state, date⟩ := change.apply_plain plain changed
  refine ⟨row, row.written key, found, ?_, state, date⟩
  rw [kms_taken_shared taken, running]
  simp only [Task.run]
  rw [loadKey_save, if_pos (change.apply_dated applied dated).2.1, found]
  rfl

/-- **Changes of keys are not lost when every write is fresh.** -/
theorem key_changes_serial {history : List KmsEvent} {final : KmsSystem}
    (run : KmsRun history final) (fresh : ∀ event ∈ history, FreshSave event) :
    (∀ id, Serializes (history.filterMap (pointOn id)) (loadKey final.shared id)) ∧
      ∀ event ∈ history, Steady event :=
  ⟨serializes_run run fresh, fun event member =>
    steady_taken (run.taken_of_mem event member) ((consistent_run run).2 event member)
      (fresh event member)⟩

end External

/-! ### A lost change -/

section Sample

@[reducible]
local instance serialExternal : External := External.sample

/-- The row is as it was loaded. -/
def unchangedSince (event : KmsEvent) : Bool :=
  match taskOf event with
  | some (.save _ _ loaded _) => decide (loadKey event.before.shared loaded.id = some loaded)
  | _ => true

theorem freshSave_of_unchanged {event : KmsEvent} (unchanged : unchangedSince event = true) :
    FreshSave event := by
  intro change time loaded key running
  rw [unchangedSince, running] at unchanged
  exact ⟨loaded, of_decide_eq_true unchanged, rfl⟩

def tagTurn : Nat × Turn :=
  turn 0 (.change "k" (.tag [("a", "b")])) 0

def disableTurn : Nat × Turn :=
  turn 1 (.change "k" (.setEnabled false)) 0

/-- The tag is written before the key is loaded to be disabled. -/
def freshTurns : List (Nat × Turn) :=
  [turn 0 (.createKey sampleInput) 0, turn 0 .read 0, tagTurn, turn 0 .read 0, turn 0 .read 0,
    disableTurn, turn 1 .read 0, turn 1 .read 0]

theorem key_changes_serial_sample : ∃ history final, KmsRun history final ∧
    (∀ id, Serializes (history.filterMap (pointOn id)) (loadKey final.shared id)) ∧
    ∀ event ∈ history, Steady event := by
  have run := Run.of_trace (System.step kmsStep) freshTurns KmsSystem.empty
  exact ⟨_, _, run, key_changes_serial run fun event member =>
    freshSave_of_unchanged (List.all_eq_true.mp (by decide) event member)⟩

/-- The key is loaded to be tagged, then disabled, and then the tag is written. -/
def lostTurns : List (Nat × Turn) :=
  [turn 0 (.createKey sampleInput) 0, turn 0 .read 0, tagTurn, turn 0 .read 0,
    disableTurn, turn 1 .read 0, turn 1 .read 0, turn 0 .read 0]

/-- **A key that was disabled is enabled again by a tag.** No order of the requests leaves it so. -/
theorem disable_lost : ∃ history final, KmsRun history final ∧
    ∀ order, order.Perm (history.filterMap (pointOn "k")) →
      ¬ Serializes order (loadKey final.shared "k") := by
  refine ⟨Run.trace (System.step kmsStep) KmsSystem.empty lostTurns, _, Run.of_trace _ _ _,
    fun order perm => ?_⟩
  have none : ∀ order ∈ List.permutations'
      ((Run.trace (System.step kmsStep) KmsSystem.empty lostTurns).filterMap (pointOn "k")),
      ¬ Serializes order (loadKey (Run.final (System.step kmsStep) KmsSystem.empty
        lostTurns).shared "k") := by decide +kernel
  exact none order (List.mem_permutations'.mpr perm)

end Sample

end CloudTwin.Kms
