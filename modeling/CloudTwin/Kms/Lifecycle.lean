/-
**The life of a KMS key, and the aliases that name it.**

A request that creates or moves an alias checks the key in one call and writes the alias in another.
In between another request may schedule the deletion of the key.

* `KmsKey.Dated` — the deletion date and the window are set exactly for a key to be deleted.
* `Outlives` — what becomes of a key in a step: it stays, with its material, or it is purged.
* `Undisturbed` — a step schedules the deletion of no key that another request is about to alias.
* `key_store_kept` — the dates and the lives hold in every run; the aliases name keys that are there
  and were not to be deleted, in every run of undisturbed steps.
* `alias_of_pending_key` — a run with one disturbance, and an alias of a key to be deleted.
-/

import CloudTwin.Kms.Requests
import Mathlib.Data.List.Nodup

namespace CloudTwin.Kms

open Lib Lib.Text

set_option linter.unusedSectionVars false

section External

variable [External]

/-! ### Dates -/

/-- The deletion date and the window are set exactly for a key to be deleted. -/
structure KmsKey.Dated (key : KmsKey) : Prop where
  date : key.deletionDate.isSome ↔ key.keyState = .pendingDeletion
  window : key.pendingWindowDays.isSome ↔ key.keyState = .pendingDeletion

/-- A change keeps the dates right. It does not touch the id, and makes a key pending only where it
schedules the deletion. -/
theorem Change.apply_dated {change : Change} {now : Int} {key changed : KmsKey}
    (done : change.apply now key = .ok changed) (dated : key.Dated) :
    changed.Dated ∧ changed.id = key.id ∧
      (changed.keyState = .pendingDeletion → ∃ days, change = .scheduleDeletion days) := by
  have live : requireNotPending key = .ok () → key.keyState ≠ .pendingDeletion := rejectIf_ok.mp
  cases change with
  | setEnabled enabled =>
    obtain ⟨_, notPending, done⟩ := bind_ok done
    cases done
    have undated := mt dated.date.mp (live notPending)
    have unwindowed := mt dated.window.mp (live notPending)
    cases enabled
    all_goals exact ⟨⟨by simp [undated], by simp [unwindowed]⟩, rfl, by simp⟩
  | scheduleDeletion days =>
    obtain ⟨_, _, done⟩ := bind_ok done
    cases done
    exact ⟨⟨by simp, by simp⟩, rfl, fun _ => ⟨days, rfl⟩⟩
  | cancelDeletion =>
    obtain ⟨_, _, done⟩ := bind_ok done
    cases done
    exact ⟨⟨by simp, by simp⟩, rfl, by simp⟩
  | setRotation enabled period =>
    obtain ⟨_, enabledKey, done⟩ := bind_ok done
    obtain ⟨_, _, done⟩ := bind_ok done
    obtain ⟨_, _, done⟩ := bind_ok done
    cases done
    refine ⟨⟨dated.date, dated.window⟩, rfl, fun pending => ?_⟩
    rw [requireEnabled, show key.keyState = .pendingDeletion from pending] at enabledKey
    cases enabledKey
  | updateDescription description =>
    obtain ⟨_, notPending, done⟩ := bind_ok done
    cases done
    exact ⟨⟨dated.date, dated.window⟩, rfl, fun pending => absurd pending (live notPending)⟩
  | tag tags =>
    obtain ⟨_, notPending, done⟩ := bind_ok done
    obtain ⟨_, _, done⟩ := bind_ok done
    obtain ⟨_, _, done⟩ := bind_ok done
    cases done
    exact ⟨⟨dated.date, dated.window⟩, rfl, fun pending => absurd pending (live notPending)⟩
  | untag tagKeys =>
    obtain ⟨_, notPending, done⟩ := bind_ok done
    cases done
    exact ⟨⟨dated.date, dated.window⟩, rfl, fun pending => absurd pending (live notPending)⟩
  | putPolicy policyName policy =>
    obtain ⟨_, notPending, done⟩ := bind_ok done
    cases done
    exact ⟨⟨dated.date, dated.window⟩, rfl, fun pending => absurd pending (live notPending)⟩

theorem buildKey_dated {input : CreateKeyInput} {drawn : Drawn} {now : Int} {key : KmsKey}
    (done : buildKey input drawn now = .ok key) : key.Dated := by
  obtain ⟨_, _, done⟩ := bind_ok done
  obtain ⟨_, _, done⟩ := bind_ok done
  obtain ⟨_, _, done⟩ := bind_ok done
  obtain ⟨_, _, done⟩ := bind_ok done
  obtain ⟨_, _, done⟩ := bind_ok done
  obtain ⟨_, _, done⟩ := bind_ok done
  cases done
  exact ⟨by simp, by simp⟩

/-- **The keys are in order**: their ids are distinct, and their dates right. -/
structure Orderly (store : Store) : Prop where
  distinct : (store.keys.map KmsKey.id).Nodup
  dated : ∀ key ∈ store.keys, key.Dated

/-- A write under way is a change of a key whose dates were right, or a key just built. -/
def Task.Sound : Task → Prop
  | .save change time loaded key => loaded.Dated ∧ change.apply time loaded = .ok key
  | .insertKey key => key.Dated
  | _ => True

theorem resolveTask_sound {goal : Goal} {keyRef : String} {task : Task}
    (done : resolveTask goal keyRef = .ok task) : task.Sound := by
  rcases resolveTask_ok done with ⟨id, rfl⟩ | ⟨name, rfl⟩
  · exact trivial
  · exact trivial

theorem beginTask_sound {request : Request} {drawn : Drawn} {now : Int} {task : Task}
    (begun : beginTask request drawn now = .ok (some task)) : task.Sound := by
  cases request with
  | change keyRef change =>
    obtain ⟨_, _, begun⟩ := bind_ok begun
    obtain ⟨next, resolved, begun⟩ := bind_ok begun
    cases begun
    exact resolveTask_sound resolved
  | createKey input =>
    obtain ⟨key, built, begun⟩ := bind_ok begun
    cases begun
    exact buildKey_dated built
  | createAlias name targetRef =>
    obtain ⟨_, _, begun⟩ := bind_ok begun
    obtain ⟨next, resolved, begun⟩ := bind_ok begun
    cases begun
    exact resolveTask_sound resolved
  | updateAlias name targetRef =>
    obtain ⟨_, _, begun⟩ := bind_ok begun
    cases begun
    exact trivial
  | deleteAlias name =>
    obtain ⟨_, _, begun⟩ := bind_ok begun
    cases begun
    exact trivial
  | read => cases begun

/-- What a request does next, once it has the key. -/
theorem run_continues {task next : Task} {now : Int} {store : Store}
    (goes : (task.run now store).1 = .continues next) :
    (∃ goal keyRef, resolveTask goal keyRef = .ok next) ∨ (∃ goal id via, next = .load goal id via) ∨
    ∃ goal id key, loadKey store id = some key ∧ reachGoal goal now key = .ok next := by
  cases task with
  | ownAlias name targetRef =>
    simp only [Task.run] at goes
    split at goes
    · exact Or.inl ⟨_, _, Progress.of_continues goes⟩
    · cases goes
  | lookup goal name =>
    simp only [Task.run] at goes
    split at goes
    · injection goes with goes
      exact Or.inr (Or.inl ⟨_, _, _, goes.symm⟩)
    · cases goes
  | load goal id via =>
    simp only [Task.run] at goes
    split at goes
    · rename_i key found
      exact Or.inr (Or.inr ⟨goal, id, key, found, Progress.of_continues goes⟩)
    · cases goes
  | save change time loaded key => cases goes
  | insertKey key =>
    simp only [Task.run, writeOr] at goes
    split at goes
    all_goals cases goes
  | insertAlias row =>
    simp only [Task.run, writeOr] at goes
    split at goes
    all_goals cases goes
  | moveAlias row => cases goes
  | removeAlias name =>
    simp only [Task.run, writeOr] at goes
    split at goes
    all_goals cases goes

theorem loadKey_mem {store : Store} {id : String} {key : KmsKey}
    (found : loadKey store id = some key) : key ∈ store.keys ∧ key.id = id :=
  ⟨List.mem_of_find?_eq_some found, by simpa using List.find?_some found⟩

theorem run_sound {task next : Task} {now : Int} {store : Store} (orderly : Orderly store)
    (goes : (task.run now store).1 = .continues next) : next.Sound := by
  rcases run_continues goes with ⟨goal, keyRef, resolved⟩ | ⟨goal, id, via, rfl⟩ |
    ⟨goal, id, key, found, reached⟩
  · exact resolveTask_sound resolved
  · exact trivial
  · cases goal with
    | change change =>
      obtain ⟨changed, applied, reached⟩ := bind_ok reached
      cases reached
      exact ⟨orderly.dated _ (loadKey_mem found).1, applied⟩
    | createAlias name =>
      obtain ⟨_, _, reached⟩ := bind_ok reached
      cases reached
      exact trivial
    | updateAlias row =>
      obtain ⟨_, _, reached⟩ := bind_ok reached
      cases reached
      exact trivial

/-! ### What the calls do to the keys and aliases -/

theorem written_dated {row key : KmsKey} (dated : key.Dated) : (row.written key).Dated :=
  ⟨dated.date, dated.window⟩

theorem save_ids (store : Store) (key : KmsKey) :
    (save store key).keys.map KmsKey.id = store.keys.map KmsKey.id := by
  rw [save, List.map_map]
  apply List.map_congr_left
  intro row _
  show (if row.id = key.id then row.written key else row).id = row.id
  by_cases same : row.id = key.id
  · rw [if_pos same]
    rfl
  · rw [if_neg same]

theorem save_mem {store : Store} {key row : KmsKey} (member : row ∈ (save store key).keys) :
    ∃ old ∈ store.keys, row = if old.id = key.id then old.written key else old := by
  obtain ⟨old, there, rfl⟩ := List.mem_map.mp member
  exact ⟨old, there, rfl⟩

theorem loadKey_none {store : Store} {id : String} (absent : ¬ (loadKey store id).isSome) :
    id ∉ store.keys.map KmsKey.id := by
  intro member
  obtain ⟨key, here, same⟩ := List.mem_map.mp member
  refine absurd ?_ absent
  rw [loadKey, List.find?_isSome]
  exact ⟨key, here, by simpa using same⟩

theorem mem_purgeExpired {store : Store} {now : Int} {key : KmsKey} :
    key ∈ (purgeExpired store now).keys ↔ key ∈ store.keys ∧ key.isExpired now = false := by
  simp [purgeExpired]

theorem mem_purgeExpired_aliases {store : Store} {now : Int} {row : KmsAlias} :
    row ∈ (purgeExpired store now).aliases ↔ row ∈ store.aliases ∧
      ∀ key ∈ store.keys, key.isExpired now = true → key.id ≠ row.targetKeyId := by
  simp [purgeExpired]

theorem purgeExpired_orderly {store : Store} {now : Int} (orderly : Orderly store) :
    Orderly (purgeExpired store now) where
  distinct := (List.filter_sublist.map _).nodup orderly.distinct
  dated key member := orderly.dated key (mem_purgeExpired.mp member).1

theorem run_orderly {task : Task} {now : Int} {store : Store} (orderly : Orderly store)
    (sound : task.Sound) : Orderly (task.run now store).2 := by
  cases task with
  | ownAlias name targetRef => exact orderly
  | lookup goal name => exact orderly
  | load goal id via => exact orderly
  | save change time loaded key =>
    refine ⟨by rw [Task.run, save_ids]; exact orderly.distinct, fun row member => ?_⟩
    obtain ⟨old, there, rfl⟩ := save_mem member
    obtain ⟨dated, applied⟩ := sound
    split
    · exact written_dated (change.apply_dated applied dated).1
    · exact orderly.dated old there
  | insertKey key =>
    rw [Task.run, writeOr_store, Kms.insertKey]
    by_cases taken : (loadKey store key.id).isSome = true
    · rw [if_pos taken]
      exact orderly
    · rw [if_neg taken]
      refine ⟨?_, fun row member => ?_⟩
      · show ((store.keys ++ [key]).map KmsKey.id).Nodup
        rw [List.map_append, List.nodup_append]
        refine ⟨orderly.distinct, List.nodup_singleton _, fun id member other single same => ?_⟩
        rw [same, List.mem_singleton.mp single] at member
        exact loadKey_none taken member
      · rcases List.mem_append.mp member with old | new
        · exact orderly.dated row old
        · rw [List.mem_singleton.mp new]
          exact sound
  | insertAlias row =>
    rw [Task.run, writeOr_store, Kms.insertAlias]
    split
    all_goals exact ⟨orderly.distinct, orderly.dated⟩
  | moveAlias row => exact ⟨orderly.distinct, orderly.dated⟩
  | removeAlias name =>
    rw [Task.run, writeOr_store, Kms.removeAlias]
    split
    all_goals exact ⟨orderly.distinct, orderly.dated⟩

/-- The store is orderly, and every write under way is sound. -/
def Consistent (system : KmsSystem) : Prop :=
  Orderly system.shared ∧ ∀ client task, system.client client = some task → task.Sound

theorem consistent_taken {event : KmsEvent} (taken : event.Taken (System.step kmsStep))
    (consistent : Consistent event.before) : Consistent event.after := by
  obtain ⟨orderly, sound⟩ := consistent
  refine ⟨?_, fun client next holds => ?_⟩
  · rw [kms_taken_shared taken]
    cases running : taskOf event with
    | none => exact purgeExpired_orderly orderly
    | some task => exact run_orderly orderly (sound _ _ running)
  · rcases kms_taken_task taken holds with before | ⟨task, _, goes⟩ | begun
    · exact sound client next before
    · exact run_sound orderly goes
    · exact beginTask_sound begun

theorem consistent_run {history : List KmsEvent} {final : KmsSystem} (run : KmsRun history final) :
    Consistent final ∧ ∀ event ∈ history, Consistent event.before := by
  have start : Consistent KmsSystem.empty := ⟨⟨List.nodup_nil, fun _ => nofun⟩, fun _ _ => nofun⟩
  exact ⟨run.invariant start fun _ => consistent_taken,
    run.invariant_before start fun _ => consistent_taken⟩

/-! ### Lives -/

/-- The key is still there, of the same material, spec and usage. -/
def KmsKey.Remains (key : KmsKey) (store : Store) : Prop :=
  ∃ row ∈ store.keys, row.id = key.id ∧ row.material = key.material ∧
    row.keySpec = key.keySpec ∧ row.keyUsage = key.keyUsage

/-- **The key is purged**: its date has passed, and its aliases go with it. -/
structure Purged (key : KmsKey) (event : KmsEvent) : Prop where
  call : taskOf event = none
  state : key.keyState = .pendingDeletion
  date : ∃ date, key.deletionDate = some date ∧ date ≤ event.input.2.now
  gone : ∀ row ∈ event.after.shared.keys, row.id ≠ key.id
  aliases : ∀ row ∈ event.after.shared.aliases, row.targetKeyId ≠ key.id

/-- **The life of a key in a step.** -/
def Outlives (event : KmsEvent) : Prop :=
  ∀ key ∈ event.before.shared.keys, key.Remains event.after.shared ∨ Purged key event

theorem run_remains (task : Task) (now : Int) {store : Store} {key : KmsKey}
    (member : key ∈ store.keys) : key.Remains (task.run now store).2 := by
  have same : key.Remains store := ⟨key, member, rfl, rfl, rfl, rfl⟩
  cases task with
  | ownAlias name targetRef => exact same
  | lookup goal name => exact same
  | load goal id via => exact same
  | save change time loaded saved =>
    refine ⟨if key.id = saved.id then key.written saved else key,
      List.mem_map_of_mem member, ?_⟩
    by_cases here : key.id = saved.id
    · rw [if_pos here]
      exact ⟨rfl, rfl, rfl, rfl⟩
    · rw [if_neg here]
      exact ⟨rfl, rfl, rfl, rfl⟩
  | insertKey new =>
    rw [Task.run, writeOr_store, Kms.insertKey]
    split
    · exact same
    · exact ⟨key, List.mem_append_left _ member, rfl, rfl, rfl, rfl⟩
  | insertAlias row =>
    rw [Task.run, writeOr_store, Kms.insertAlias]
    split
    all_goals exact same
  | moveAlias row => exact same
  | removeAlias name =>
    rw [Task.run, writeOr_store, Kms.removeAlias]
    split
    all_goals exact same

theorem isExpired_iff {key : KmsKey} {now : Int} :
    key.isExpired now = true ↔ key.keyState = .pendingDeletion ∧
      ∃ date, key.deletionDate = some date ∧ date ≤ now := by
  simp [KmsKey.isExpired, Option.any_eq_true]

theorem outlives_taken {event : KmsEvent} (taken : event.Taken (System.step kmsStep))
    (orderly : Orderly event.before.shared) : Outlives event := by
  intro key member
  have shared := kms_taken_shared taken
  cases running : taskOf event with
  | some task =>
    rw [running] at shared
    rw [shared]
    exact Or.inl (run_remains task _ member)
  | none =>
    rw [running] at shared
    by_cases expired : key.isExpired event.input.2.now = true
    · obtain ⟨pending, date⟩ := isExpired_iff.mp expired
      refine Or.inr ⟨running, pending, date, fun row there same => ?_, fun row there same => ?_⟩
      · rw [shared] at there
        obtain ⟨before, kept⟩ := mem_purgeExpired.mp there
        rw [List.inj_on_of_nodup_map orderly.distinct before member same, expired] at kept
        cases kept
      · rw [shared] at there
        exact (mem_purgeExpired_aliases.mp there).2 key member expired same.symm
    · rw [shared]
      exact Or.inl ⟨key, mem_purgeExpired.mpr ⟨member, by simpa using expired⟩, rfl, rfl, rfl, rfl⟩

/-! ### Aliases -/

/-- The key is there, and not to be deleted. -/
def Live (store : Store) (id : String) : Prop :=
  ∃ key ∈ store.keys, key.id = id ∧ key.keyState ≠ .pendingDeletion

/-- The key that a request is about to name. -/
def Task.aliasTarget : Task → Option String
  | .insertAlias row => some row.targetKeyId
  | .moveAlias row => some row.targetKeyId
  | _ => none

/-- Every alias names a key that is there. -/
def Named (store : Store) : Prop :=
  ∀ row ∈ store.aliases, ∃ key ∈ store.keys, key.id = row.targetKeyId

/-- Every alias that the step writes names a key that is not to be deleted. -/
def WritesLive (event : KmsEvent) : Prop :=
  ∀ row ∈ event.after.shared.aliases, row ∉ event.before.shared.aliases →
    Live event.before.shared row.targetKeyId

/-- **The step schedules the deletion of no key that another request is about to name.** -/
def Undisturbed (event : KmsEvent) : Prop :=
  ∀ days time loaded key, taskOf event = some (.save (.scheduleDeletion days) time loaded key) →
    ∀ client task, event.before.client client = some task → task.aliasTarget ≠ some key.id

/-- Every alias names a key, and every request is about to name a live one. -/
def Aimed (system : KmsSystem) : Prop :=
  Named system.shared ∧ ∀ client task id, system.client client = some task →
    task.aliasTarget = some id → Live system.shared id

theorem purge_live {store : Store} {now : Int} {id : String} (live : Live store id) :
    Live (purgeExpired store now) id := by
  obtain ⟨key, member, same, notPending⟩ := live
  exact ⟨key, mem_purgeExpired.mpr ⟨member, by simp [KmsKey.isExpired, notPending]⟩, same,
    notPending⟩

theorem run_live {task : Task} {now : Int} {store : Store} {id : String} (sound : task.Sound)
    (apart : ∀ days time loaded key, task = .save (.scheduleDeletion days) time loaded key →
      key.id ≠ id)
    (live : Live store id) : Live (task.run now store).2 id := by
  obtain ⟨key, member, same, notPending⟩ := live
  cases task with
  | save change time loaded saved =>
    refine ⟨if key.id = saved.id then key.written saved else key, List.mem_map_of_mem member, ?_⟩
    by_cases here : key.id = saved.id
    · rw [if_pos here]
      refine ⟨same, fun pending => ?_⟩
      obtain ⟨dated, applied⟩ := sound
      obtain ⟨days, rfl⟩ := (change.apply_dated applied dated).2.2 pending
      exact apart days time loaded saved rfl (here.symm.trans same)
    · rw [if_neg here]
      exact ⟨same, notPending⟩
  | insertKey new =>
    rw [Task.run, writeOr_store, Kms.insertKey]
    split
    · exact ⟨key, member, same, notPending⟩
    · exact ⟨key, List.mem_append_left _ member, same, notPending⟩
  | insertAlias row =>
    rw [Task.run, writeOr_store, Kms.insertAlias]
    split
    all_goals exact ⟨key, member, same, notPending⟩
  | removeAlias name =>
    rw [Task.run, writeOr_store, Kms.removeAlias]
    split
    all_goals exact ⟨key, member, same, notPending⟩
  | _ => exact ⟨key, member, same, notPending⟩

/-- The aliases after a call: those before it, and the one that it names. -/
theorem run_aliases {task : Task} {now : Int} {store : Store} {row : KmsAlias}
    (member : row ∈ (task.run now store).2.aliases) :
    row ∈ store.aliases ∨ task.aliasTarget = some row.targetKeyId := by
  cases task with
  | insertKey key =>
    rw [Task.run, writeOr_store, Kms.insertKey] at member
    split at member
    all_goals exact Or.inl member
  | insertAlias new =>
    rw [Task.run, writeOr_store, Kms.insertAlias] at member
    split at member
    · exact Or.inl member
    · rcases List.mem_append.mp member with old | added
      · exact Or.inl old
      · rw [List.mem_singleton.mp added]
        exact Or.inr rfl
  | moveAlias new =>
    obtain ⟨old, there, rfl⟩ := List.mem_map.mp member
    by_cases same : old.name = new.name
    · rw [if_pos same]
      exact Or.inr rfl
    · rw [if_neg same]
      exact Or.inl there
  | removeAlias name =>
    rw [Task.run, writeOr_store, Kms.removeAlias] at member
    split at member
    · exact Or.inl member
    · exact Or.inl (List.mem_filter.mp member).1
  | _ => exact Or.inl member

theorem run_named {task : Task} {now : Int} {store : Store} (named : Named store)
    (live : ∀ id, task.aliasTarget = some id → Live store id) :
    Named (task.run now store).2 := by
  intro row member
  have target : ∃ key ∈ store.keys, key.id = row.targetKeyId := by
    rcases run_aliases member with old | new
    · exact named row old
    · obtain ⟨key, there, same, _⟩ := live _ new
      exact ⟨key, there, same⟩
  obtain ⟨key, there, same⟩ := target
  obtain ⟨kept, here, sameId, _⟩ := run_remains task now there
  exact ⟨kept, here, sameId.trans same⟩

theorem purge_named {store : Store} {now : Int} (named : Named store) :
    Named (purgeExpired store now) := by
  intro row member
  obtain ⟨old, unexpired⟩ := mem_purgeExpired_aliases.mp member
  obtain ⟨key, there, same⟩ := named row old
  refine ⟨key, mem_purgeExpired.mpr ⟨there, ?_⟩, same⟩
  by_cases expired : key.isExpired now = true
  · exact absurd same (unexpired key there expired)
  · simpa using expired

/-- What a request is about to name, it has just seen alive. -/
theorem run_aims {task next : Task} {now : Int} {store : Store} {id : String}
    (goes : (task.run now store).1 = .continues next) (aims : next.aliasTarget = some id) :
    Live store id := by
  rcases run_continues goes with ⟨goal, keyRef, resolved⟩ | ⟨goal, other, via, rfl⟩ |
    ⟨goal, other, key, found, reached⟩
  · rcases resolveTask_ok resolved with ⟨_, rfl⟩ | ⟨_, rfl⟩
    all_goals cases aims
  · cases aims
  · have live : requireNotPending key = .ok () → Live store key.id := fun notPending =>
      ⟨key, (loadKey_mem found).1, rfl, rejectIf_ok.mp notPending⟩
    cases goal with
    | change change =>
      obtain ⟨changed, _, reached⟩ := bind_ok reached
      cases reached
      cases aims
    | createAlias name =>
      obtain ⟨_, notPending, reached⟩ := bind_ok reached
      cases reached
      cases aims
      exact live notPending
    | updateAlias row =>
      obtain ⟨_, notPending, reached⟩ := bind_ok reached
      cases reached
      cases aims
      exact live notPending

theorem beginTask_aims {request : Request} {drawn : Drawn} {now : Int} {task : Task}
    (begun : beginTask request drawn now = .ok (some task)) : task.aliasTarget = none := by
  have resolved : ∀ {goal keyRef next}, resolveTask goal keyRef = .ok next →
      next.aliasTarget = none := by
    intro goal keyRef next done
    rcases resolveTask_ok done with ⟨_, rfl⟩ | ⟨_, rfl⟩
    all_goals rfl
  cases request with
  | change keyRef change =>
    obtain ⟨_, _, begun⟩ := bind_ok begun
    obtain ⟨next, done, begun⟩ := bind_ok begun
    cases begun
    exact resolved done
  | createKey input =>
    obtain ⟨key, _, begun⟩ := bind_ok begun
    cases begun
    rfl
  | createAlias name targetRef =>
    obtain ⟨_, _, begun⟩ := bind_ok begun
    obtain ⟨next, done, begun⟩ := bind_ok begun
    cases begun
    exact resolved done
  | updateAlias name targetRef =>
    obtain ⟨_, _, begun⟩ := bind_ok begun
    cases begun
    rfl
  | deleteAlias name =>
    obtain ⟨_, _, begun⟩ := bind_ok begun
    cases begun
    rfl
  | read => cases begun

theorem aimed_taken {event : KmsEvent} (taken : event.Taken (System.step kmsStep))
    (consistent : Consistent event.before) (undisturbed : Undisturbed event)
    (aimed : Aimed event.before) : Aimed event.after := by
  obtain ⟨named, live⟩ := aimed
  have shared := kms_taken_shared taken
  -- what a request is about to name stays alive in the step
  have stays : ∀ client task id, event.before.client client = some task →
      task.aliasTarget = some id → Live event.after.shared id := by
    intro client task id holds aims
    rw [shared]
    cases running : taskOf event with
    | none => exact purge_live (live client task id holds aims)
    | some current =>
      refine run_live (consistent.2 _ _ running) (fun days time loaded key same => ?_)
        (live client task id holds aims)
      subst same
      exact fun sameId => undisturbed days time loaded key running client task holds
        (aims.trans (congrArg some sameId.symm))
  refine ⟨?_, fun client next id holds aims => ?_⟩
  · rw [shared]
    cases running : taskOf event with
    | none => exact purge_named named
    | some task => exact run_named named fun id => live _ task id running
  · rcases kms_taken_task taken holds with before | ⟨task, running, goes⟩ | begun
    · exact stays client next id before aims
    · have there := run_aims goes aims
      rw [shared, running]
      refine run_live (consistent.2 _ _ running) (fun days time loaded key same => ?_) there
      subst same
      cases goes
    · rw [beginTask_aims begun] at aims
      cases aims

theorem writesLive_taken {event : KmsEvent} (taken : event.Taken (System.step kmsStep))
    (aimed : Aimed event.before) : WritesLive event := by
  intro row after before
  rw [kms_taken_shared taken] at after
  cases running : taskOf event with
  | none =>
    rw [running] at after
    exact absurd (mem_purgeExpired_aliases.mp after).1 before
  | some task =>
    rw [running] at after
    rcases run_aliases after with old | new
    · exact absurd old before
    · exact aimed.2 _ task _ running new

theorem aimed_run {history : List KmsEvent} {final : KmsSystem} (run : KmsRun history final)
    (undisturbed : ∀ event ∈ history, Undisturbed event) :
    Aimed final ∧ ∀ event ∈ history, Aimed event.before := by
  have start : Aimed KmsSystem.empty := ⟨fun _ => nofun, fun _ _ _ => nofun⟩
  have prefixes : ∀ past rest, history = past ++ rest → ∀ stop, KmsRun past stop → Aimed stop := by
    intro past rest cut stop runPast
    refine runPast.invariant_along start fun event member taken aimed => ?_
    exact aimed_taken taken ((consistent_run runPast).2 event member)
      (undisturbed event (cut ▸ List.mem_append_left _ member)) aimed
  refine ⟨prefixes history [] (List.append_nil _).symm _ run, fun event member => ?_⟩
  obtain ⟨past, rest, rfl⟩ := List.append_of_mem member
  exact prefixes past _ rfl _ run.around.1

/-- **The store of keys and aliases.** The dates of every key are right and every key lives until it
is purged, in every run. In a run where no deletion is scheduled of a key that another request is
about to name, every alias names a key, which was not to be deleted when the alias was written. -/
theorem key_store_kept {history : List KmsEvent} {final : KmsSystem} (run : KmsRun history final) :
    Orderly final.shared ∧ (∀ event ∈ history, Outlives event) ∧
    ((∀ event ∈ history, Undisturbed event) →
      Named final.shared ∧ ∀ event ∈ history, WritesLive event) := by
  obtain ⟨consistent, past⟩ := consistent_run run
  refine ⟨consistent.1, fun event member => ?_, fun undisturbed => ?_⟩
  · exact outlives_taken (run.taken_of_mem event member) (past event member).1
  · obtain ⟨aimed, before⟩ := aimed_run run undisturbed
    exact ⟨aimed.1, fun event member =>
      writesLive_taken (run.taken_of_mem event member) (before event member)⟩

end External

/-! ### An alias of a key to be deleted -/

section Sample

@[reducible]
local instance lifecycleExternal : External := External.sample

def sampleInput : CreateKeyInput where
  id := some "k"
  description := none
  keyUsage := none
  keySpec := none
  origin := none
  policy := none
  tags := []
  multiRegion := false
  material := none

/-- The turn of a client on its request, at a time. -/
def turn (client : Nat) (request : Request) (now : Int) : Nat × Turn :=
  (client, { now := now, request := request, drawn := { uuid := "u", bytes := [] } })

/-- One client has seen the key alive, another schedules its deletion, and the first writes its
alias; the key is purged after its date. -/
def disturbedTurns : List (Nat × Turn) :=
  [turn 0 (.createKey sampleInput) 0, turn 0 .read 0,
    turn 0 (.createAlias "alias/a" "k") 0, turn 0 .read 0,
    turn 1 (.change "k" (.scheduleDeletion (some 7))) 0, turn 1 .read 0, turn 1 .read 0,
    turn 0 .read 0]

/-- A key is created, and an alias of it. -/
def calmTurns : List (Nat × Turn) :=
  disturbedTurns.take 4 ++ [turn 0 .read 0]

/-- The deletion of the key is scheduled when its alias stands; the last step writes it. -/
def scheduleTurns : List (Nat × Turn) :=
  [turn 1 (.change "k" (.scheduleDeletion (some 7))) 0, turn 1 .read 0]

def Task.isSave : Task → Bool
  | .save _ _ _ _ => true
  | _ => false

theorem undisturbed_of_reads {event : KmsEvent} (quiet : (taskOf event).any Task.isSave = false) :
    Undisturbed event := by
  intro days time loaded key saving
  rw [saving] at quiet
  cases quiet

theorem key_store_kept_sample :
    ∃ history final, KmsRun history final ∧ final.shared.aliases ≠ [] ∧
      (∃ key ∈ final.shared.keys, key.keyState = .pendingDeletion) ∧ Orderly final.shared ∧
      (∀ event ∈ history, Outlives event) ∧ Named final.shared ∧
      ∀ event ∈ history, WritesLive event := by
  have run : KmsRun _ (Event.of (System.step kmsStep) (Run.final (System.step kmsStep)
      KmsSystem.empty (calmTurns ++ scheduleTurns)) (turn 1 .read 0)).after :=
    Run.next (Run.of_trace (System.step kmsStep) (calmTurns ++ scheduleTurns) KmsSystem.empty)
      (Event.of_taken _ _ _)
  obtain ⟨orderly, lives, aliases⟩ := key_store_kept run
  refine ⟨_, _, run, by decide, by decide, orderly, lives, aliases fun event member => ?_⟩
  rcases List.mem_append.mp member with early | last
  · have quiet : ∀ event ∈ Run.trace (System.step kmsStep) KmsSystem.empty
        (calmTurns ++ scheduleTurns), (taskOf event).any Task.isSave = false := by decide
    exact undisturbed_of_reads (quiet event early)
  · rw [List.mem_singleton] at last
    subst last
    -- the alias is written, so no other request is under way
    intro days time loaded key saving client task holds aims
    match client with
    | 0 => cases holds
    | 1 =>
      obtain rfl : task = _ := (Option.some.inj holds).symm
      cases aims
    | n + 2 => cases holds

/-- The alias of a key that is pending deletion is written. -/
theorem alias_of_pending_key : ∃ history final, KmsRun history final ∧
    ¬ ∀ event ∈ history, WritesLive event := by
  refine ⟨Run.trace (System.step kmsStep) KmsSystem.empty disturbedTurns, _,
    Run.of_trace _ _ _, fun live => ?_⟩
  obtain ⟨key, member, _, notPending⟩ := live
    (Event.of (System.step kmsStep) (Run.final (System.step kmsStep) KmsSystem.empty
      (disturbedTurns.take 7)) (turn 0 .read 0)) (by simp [disturbedTurns, Run.trace, Run.final])
    ⟨"alias/a", "k", 0, 0⟩ (by decide) (by decide)
  have pending : ∀ key ∈ (Run.final (System.step kmsStep) KmsSystem.empty
      (disturbedTurns.take 7)).shared.keys, key.keyState = .pendingDeletion := by decide
  exact notPending (pending key member)

end Sample

end CloudTwin.Kms
