/-
**Concurrent edits of receipt rule sets.**

An edit reads the rules of a set in one call and writes all of them back in another. What another
request wrote in between is overwritten, and the rules of a set deleted in between come back without
their set.

* `Tidy` — distinct sets, at most one of them active, and the rows of each set numbered in order,
  under distinct names. Every step keeps it.
* `Edit.perform` — an edit of a list of rules as a whole.
* `FreshWrite` — the rules are still those that were read, and no clone is half done.
* `rule_sets_consistent` — in a run of fresh writes, every rule has its set, and the requests in the
  order of their writes leave the rules of every set.
* `rule_lost` — two rules are created at once, and one of them is lost.
-/

import CloudTwin.Ses.RuleSets
import CloudTwin.Lib.Serial
import Mathlib.Data.List.Permutation

namespace CloudTwin.Ses

open Lib Lib.Text

set_option linter.unusedSectionVars false

/-! ### What a step can do -/

/-- **What a step of a client does.** -/
theorem rule_taken {event : RuleEvent} (taken : event.Taken (System.step ruleStep)) :
    event.after.shared = ((ruleTaskOf event).run event.input.2.places event.before.shared).2 ∧
    match ((ruleTaskOf event).run event.input.2.places event.before.shared).1 with
    | .continues next => event.output = none ∧ event.after.client event.input.1 = some next
    | .ends result => event.output = some result ∧ event.after.client event.input.1 = none := by
  have step := (System.taken_advance taken).1
  unfold ruleStep at step
  rw [← ruleTaskOf] at step
  split at step
  · rename_i next after ran
    rw [ran]
    obtain ⟨output, step⟩ := Prod.mk.inj step
    obtain ⟨shared, client⟩ := Prod.mk.inj step
    exact ⟨shared.symm, output.symm, client.symm⟩
  · rename_i result after ran
    rw [ran]
    obtain ⟨output, step⟩ := Prod.mk.inj step
    obtain ⟨shared, client⟩ := Prod.mk.inj step
    exact ⟨shared.symm, output.symm, client.symm⟩

/-- Where the task of a client comes from: it had it, or its step led to it. -/
theorem rule_taken_task {event : RuleEvent} (taken : event.Taken (System.step ruleStep))
    {client : Nat} {next : RuleTask} (holds : event.after.client client = some next) :
    (client ≠ event.input.1 ∧ event.before.client client = some next) ∨
    (client = event.input.1 ∧
      ((ruleTaskOf event).run event.input.2.places event.before.shared).1 = .continues next) := by
  by_cases same : client = event.input.1
  · subst same
    obtain ⟨_, ran⟩ := rule_taken taken
    split at ran
    · rename_i goes
      rw [ran.2] at holds
      cases holds
      exact Or.inr ⟨rfl, goes⟩
    · rw [ran.2] at holds
      cases holds
  · rw [(System.taken_advance taken).2 client same] at holds
    exact Or.inl ⟨same, holds⟩

/-- **Four of the calls change the store.** -/
theorem run_store (task : RuleTask) (places : Places) (store : RuleStore) :
    (task.run places store).2 =
      match task with
      | .insertSet name _ => (insertSet store name).getD store
      | .deleteSet name => deleteSet store name
      | .activate name => activate store name
      | .write set _ _ rules => (writeRules store set rules).getD store
      | _ => store := by
  cases task with
  | insertSet name fill =>
    simp only [RuleTask.run]
    cases insertSet store name
    all_goals rfl
  | write set edit read rules =>
    simp only [RuleTask.run]
    cases writeRules store set rules
    all_goals rfl
  | _ => rfl

theorem of_continues {result : SesResult RuleTask} {next : RuleTask}
    (goes : RuleProgress.of result = .continues next) : result = .ok next := by
  cases result with
  | ok task =>
    cases goes
    rfl
  | error error => cases goes

/-- **Where a call can lead**, and what it has checked. -/
theorem run_goes {task next : RuleTask} {places : Places} {store : RuleStore}
    (goes : (task.run places store).1 = .continues next) :
    match task with
    | .begin request => beginRequest request store = .ok next
    | .cloneRules name original => next = .cloneCreated name (rulesOf store original)
    | .cloneCreated name rules => next = .insertSet name (some rules)
    | .insertSet name fill => setExists store name = false ∧
        ∃ rules, fill = some rules ∧ next = .write name none [] rules
    | .checkActive name => next = .deleteSet name
    | .readRules set edit => edit.precheck (rulesOf store set) = .ok () ∧
        ((∃ rule, next = .validate set edit rule (rulesOf store set)) ∨
          prepareWrite set edit (rulesOf store set) = .ok next)
    | .validate set edit _ read => prepareWrite set edit read = .ok next
    | _ => False := by
  cases task with
  | begin request => exact of_continues goes
  | cloneRules name original =>
    cases goes
    rfl
  | cloneCreated name rules =>
    obtain ⟨_, _, done⟩ := bind_ok (of_continues goes)
    obtain ⟨_, _, done⟩ := bind_ok done
    cases done
    rfl
  | insertSet name fill =>
    simp only [RuleTask.run, insertSet] at goes
    by_cases taken : setExists store name = true
    · rw [if_pos taken] at goes
      cases goes
    · rw [if_neg taken] at goes
      cases fill with
      | none => cases goes
      | some rules =>
        cases goes
        exact ⟨Bool.eq_false_iff.mpr taken, rules, rfl, rfl⟩
  | checkActive name =>
    obtain ⟨_, _, done⟩ := bind_ok (of_continues goes)
    cases done
    rfl
  | deleteSet name => cases goes
  | activate name => cases goes
  | readRules set edit =>
    obtain ⟨_, checked, done⟩ := bind_ok (of_continues goes)
    refine ⟨checked, ?_⟩
    cases fresh : edit.newRule with
    | none =>
      rw [fresh] at done
      exact Or.inr done
    | some rule =>
      rw [fresh] at done
      cases done
      exact Or.inl ⟨rule, rfl⟩
  | validate set edit rule read =>
    obtain ⟨_, _, done⟩ := bind_ok (of_continues goes)
    exact done
  | write set edit read rules =>
    simp only [RuleTask.run] at goes
    split at goes
    all_goals cases goes

theorem prepareWrite_ok {set : String} {edit : Edit} {read : List Json} {next : RuleTask}
    (done : prepareWrite set edit read = .ok next) :
    ∃ rules, edit.apply read = .ok rules ∧ next = .write set (some edit) read rules := by
  obtain ⟨rules, applied, done⟩ := bind_ok done
  cases done
  exact ⟨rules, applied, rfl⟩

/-- What the first call of a request leads to. -/
theorem beginRequest_ok {request : RuleRequest} {store : RuleStore} {next : RuleTask}
    (done : beginRequest request store = .ok next) :
    match request with
    | .createRuleSet name => next = .insertSet name none
    | .cloneRuleSet name original => next = .cloneRules name original
    | .deleteRuleSet name => next = .checkActive name
    | .setActiveRuleSet name => next = .activate name
    | .edit set edit => setExists store set = true ∧ next = .readRules set edit.normalized := by
  cases request with
  | createRuleSet name =>
    obtain ⟨_, _, done⟩ := bind_ok done
    obtain ⟨_, _, done⟩ := bind_ok done
    cases done
    rfl
  | edit set edit =>
    obtain ⟨_, there, done⟩ := bind_ok done
    cases done
    exact ⟨Bool.eq_true_of_not_eq_false (rejectIf_ok.mp there), rfl⟩
  | _ =>
    obtain ⟨_, _, done⟩ := bind_ok done
    cases done
    rfl

/-! ### Sound tasks -/

/-- What a request has checked of the rules that it carries. -/
def RuleTask.Sound : RuleTask → Prop
  | .cloneCreated _ rules => (rowNames rules).Nodup
  | .insertSet _ fill => ∀ rules, fill = some rules → (rowNames rules).Nodup
  | .validate _ edit _ read => edit.precheck read = .ok ()
  | .write _ (some edit) read rules => edit.precheck read = .ok () ∧ edit.apply read = .ok rules
  | .write _ none _ rules => (rowNames rules).Nodup
  | _ => True

theorem prepareWrite_sound {set : String} {edit : Edit} {read : List Json} {next : RuleTask}
    (checked : edit.precheck read = .ok ()) (done : prepareWrite set edit read = .ok next) :
    next.Sound := by
  obtain ⟨rules, applied, rfl⟩ := prepareWrite_ok done
  exact ⟨checked, applied⟩

theorem beginRequest_sound {request : RuleRequest} {store : RuleStore} {next : RuleTask}
    (done : beginRequest request store = .ok next) : next.Sound := by
  have leads := beginRequest_ok done
  cases request with
  | createRuleSet name =>
    simp only at leads
    subst leads
    exact fun _ => nofun
  | edit set edit =>
    obtain ⟨_, rfl⟩ := leads
    trivial
  | _ =>
    simp only at leads
    subst leads
    trivial

/-- **A call leads to a sound one.** -/
theorem run_sound {task next : RuleTask} {places : Places} {store : RuleStore}
    (names : ∀ set, (rowNames (rulesOf store set)).Nodup) (sound : task.Sound)
    (goes : (task.run places store).1 = .continues next) : next.Sound := by
  have leads := run_goes goes
  cases task with
  | begin request => exact beginRequest_sound leads
  | cloneRules name original =>
    simp only at leads
    subst leads
    exact names original
  | cloneCreated name rules =>
    simp only at leads
    subst leads
    rintro _ ⟨⟩
    exact sound
  | insertSet name fill =>
    obtain ⟨_, rules, rfl, rfl⟩ := leads
    exact sound rules rfl
  | checkActive name =>
    simp only at leads
    subst leads
    trivial
  | readRules set edit =>
    obtain ⟨checked, ⟨rule, rfl⟩ | done⟩ := leads
    · exact checked
    · exact prepareWrite_sound checked done
  | validate set edit rule read => exact prepareWrite_sound sound leads
  | _ => exact leads.elim

/-- Only a clone goes on to write rules that no edit made, right after it has inserted its set. -/
theorem run_clones {task : RuleTask} {places : Places} {store : RuleStore} {set : String}
    {read rules : List Json}
    (goes : (task.run places store).1 = .continues (.write set none read rules)) :
    task = .insertSet set (some rules) ∧ setExists store set = false := by
  have leads := run_goes goes
  cases task with
  | begin request =>
    have first := beginRequest_ok leads
    cases request with
    | edit set edit => cases first.2
    | _ => cases first
  | insertSet name fill =>
    obtain ⟨free, copied, rfl, same⟩ := leads
    cases same
    exact ⟨rfl, free⟩
  | readRules other edit =>
    obtain ⟨_, ⟨rule, same⟩ | done⟩ := leads
    · cases same
    · obtain ⟨_, _, same⟩ := prepareWrite_ok done
      cases same
  | validate other edit rule read' =>
    obtain ⟨_, _, same⟩ := prepareWrite_ok leads
    cases same
  | deleteSet name => exact leads.elim
  | activate name => exact leads.elim
  | write other edit read' rules' => exact leads.elim
  | _ => cases leads

/-! ### Rows -/

theorem numbered_rules (set : String) (rules : List Json) :
    ∀ position, (numbered set position rules).map RuleRow.rule = rules := by
  induction rules with
  | nil => exact fun _ => rfl
  | cons rule rest ih => exact fun position => congrArg (rule :: ·) (ih (position + 1))

theorem numbered_names (set : String) (rules : List Json) :
    ∀ position, (numbered set position rules).map RuleRow.name = rowNames rules := by
  induction rules with
  | nil => exact fun _ => rfl
  | cons rule rest ih => exact fun position => congrArg (_ :: ·) (ih (position + 1))

theorem numbered_mem (set : String) (rules : List Json) :
    ∀ position, ∀ row ∈ numbered set position rules, row.ruleSet = set ∧ position ≤ row.position := by
  induction rules with
  | nil => exact fun _ _ => nofun
  | cons rule rest ih =>
    intro position row member
    rcases List.mem_cons.mp member with rfl | later
    · exact ⟨rfl, le_refl _⟩
    · obtain ⟨same, past⟩ := ih (position + 1) row later
      exact ⟨same, by omega⟩

theorem numbered_sorted (set : String) (rules : List Json) :
    ∀ position, (numbered set position rules).Pairwise fun first second =>
      decide (first.position ≤ second.position) = true := by
  induction rules with
  | nil => exact fun _ => List.Pairwise.nil
  | cons rule rest ih =>
    intro position
    refine List.pairwise_cons.mpr ⟨fun row member => ?_, ih (position + 1)⟩
    have past := (numbered_mem set rest (position + 1) row member).2
    exact decide_eq_true (show position ≤ row.position by omega)

/-- The rows of a set. -/
def rowsOf (store : RuleStore) (set : String) : List RuleRow :=
  store.rules.filter fun row => row.ruleSet == set

theorem rulesOf_numbered {store : RuleStore} {set : String} {rules : List Json}
    (rows : rowsOf store set = numbered set 0 rules) : rulesOf store set = rules := by
  show ((rowsOf store set).mergeSort _).map _ = rules
  rw [rows, List.mergeSort_of_pairwise (numbered_sorted set rules 0), numbered_rules]

theorem filter_numbered (set other : String) (rules : List Json) (position : Nat) :
    ((numbered set position rules).filter fun row => row.ruleSet == other) =
      if set = other then numbered set position rules else [] := by
  by_cases same : set = other
  · rw [if_pos same]
    exact List.filter_eq_self.mpr fun row member =>
      beq_iff_eq.mpr ((numbered_mem set rules position row member).1.trans same)
  · rw [if_neg same]
    exact List.filter_eq_nil_iff.mpr fun row member holds =>
      same ((numbered_mem set rules position row member).1.symm.trans (beq_iff_eq.mp holds))

/-- The rows of a set once the rows of one set have gone. -/
theorem filter_without (rows : List RuleRow) (set other : String) :
    ((rows.filter fun row => row.ruleSet != set).filter fun row => row.ruleSet == other) =
      if set = other then [] else rows.filter fun row => row.ruleSet == other := by
  rw [List.filter_filter]
  by_cases same : set = other
  · subst same
    rw [if_pos rfl]
    exact List.filter_eq_nil_iff.mpr fun row _ => by simp
  · rw [if_neg same]
    refine List.filter_congr fun row _ => ?_
    by_cases here : row.ruleSet = other
    · simp [here, Ne.symm same]
    · simp [here]

theorem rowsOf_writeRules {store after : RuleStore} {set : String} {rules : List Json}
    (written : writeRules store set rules = some after) (other : String) :
    rowsOf after other = if set = other then numbered set 0 rules else rowsOf store other := by
  unfold writeRules at written
  split at written
  · cases written
    show List.filter _ (_ ++ _) = _
    rw [List.filter_append, filter_without, filter_numbered]
    by_cases same : set = other
    · simp [same]
    · simp [same, rowsOf]
  · cases written

theorem rowsOf_deleteSet (store : RuleStore) (set other : String) :
    rowsOf (deleteSet store set) other = if set = other then [] else rowsOf store other :=
  filter_without store.rules set other

/-! ### Tidy stores -/

/-- **What every step keeps of the store.** -/
structure Tidy (store : RuleStore) : Prop where
  distinct : (store.sets.map RuleSet.name).Nodup
  oneActive : ∀ first ∈ store.sets, ∀ second ∈ store.sets,
    first.active = true → second.active = true → first = second
  rows : ∀ set, ∃ rules, (rowNames rules).Nodup ∧ rowsOf store set = numbered set 0 rules

theorem Tidy.names {store : RuleStore} (tidy : Tidy store) (set : String) :
    ((rowsOf store set).map RuleRow.name).Nodup := by
  obtain ⟨rules, names, rows⟩ := tidy.rows set
  rwa [rows, numbered_names]

theorem Tidy.ruleNames {store : RuleStore} (tidy : Tidy store) (set : String) :
    (rowNames (rulesOf store set)).Nodup := by
  obtain ⟨rules, names, rows⟩ := tidy.rows set
  rwa [rulesOf_numbered rows]

theorem setExists_iff {store : RuleStore} {name : String} :
    setExists store name = true ↔ name ∈ store.sets.map RuleSet.name := by
  simp [setExists]

theorem tidy_insertSet {store : RuleStore} (tidy : Tidy store) (name : String) :
    Tidy ((insertSet store name).getD store) := by
  unfold insertSet
  by_cases taken : setExists store name = true
  · rw [if_pos taken]
    exact tidy
  · rw [if_neg taken]
    refine ⟨?_, fun first memberFirst second memberSecond activeFirst activeSecond => ?_, tidy.rows⟩
    · show (List.map _ (_ ++ _)).Nodup
      rw [List.map_append, List.nodup_append]
      refine ⟨tidy.distinct, List.nodup_singleton _, fun old member new same equal => ?_⟩
      rw [List.mem_singleton.mp same] at equal
      subst equal
      exact taken (setExists_iff.mpr member)
    · rcases List.mem_append.mp memberFirst with old | new
      · rcases List.mem_append.mp memberSecond with oldToo | new
        · exact tidy.oneActive first old second oldToo activeFirst activeSecond
        · rw [List.mem_singleton.mp new] at activeSecond
          cases activeSecond
      · rw [List.mem_singleton.mp new] at activeFirst
        cases activeFirst

theorem tidy_deleteSet {store : RuleStore} (tidy : Tidy store) (name : String) :
    Tidy (deleteSet store name) := by
  refine ⟨tidy.distinct.sublist (List.filter_sublist.map _), ?_, fun set => ?_⟩
  · exact fun first memberFirst second memberSecond =>
      tidy.oneActive first (List.mem_of_mem_filter memberFirst) second
        (List.mem_of_mem_filter memberSecond)
  · rw [rowsOf_deleteSet]
    by_cases same : name = set
    · exact ⟨[], List.nodup_nil, by simp [same, numbered]⟩
    · rw [if_neg same]
      exact tidy.rows set

theorem tidy_activate {store : RuleStore} (tidy : Tidy store) (name : Option String) :
    Tidy (activate store name) := by
  refine ⟨?_, fun first memberFirst second memberSecond activeFirst activeSecond => ?_, tidy.rows⟩
  · show (List.map _ (List.map _ _)).Nodup
    rw [List.map_map]
    exact tidy.distinct
  · obtain ⟨one, memberOne, rfl⟩ := List.mem_map.mp memberFirst
    obtain ⟨two, memberTwo, rfl⟩ := List.mem_map.mp memberSecond
    have same : one.name = two.name :=
      Option.some.inj ((beq_iff_eq.mp activeFirst).trans (beq_iff_eq.mp activeSecond).symm)
    rw [List.inj_on_of_nodup_map tidy.distinct memberOne memberTwo same]

theorem tidy_writeRules {store : RuleStore} (tidy : Tidy store) (set : String)
    (rules : List Json) : Tidy ((writeRules store set rules).getD store) := by
  cases written : writeRules store set rules with
  | none => exact tidy
  | some after =>
    have rows := rowsOf_writeRules written
    unfold writeRules at written
    split at written
    · rename_i names
      cases written
      refine ⟨tidy.distinct, tidy.oneActive, fun other => ?_⟩
      rw [Option.getD_some, rows other]
      by_cases same : set = other
      · subst same
        exact ⟨rules, names, if_pos rfl⟩
      · rw [if_neg same]
        exact tidy.rows other
    · cases written

theorem tidy_run {store : RuleStore} (tidy : Tidy store) (task : RuleTask) (places : Places) :
    Tidy (task.run places store).2 := by
  rw [run_store]
  cases task with
  | insertSet name fill => exact tidy_insertSet tidy name
  | deleteSet name => exact tidy_deleteSet tidy name
  | activate name => exact tidy_activate tidy name
  | write set edit read rules => exact tidy_writeRules tidy set rules
  | _ => exact tidy

/-- The store is tidy, and every call under way is sound. -/
def RulesConsistent (system : RuleSystem) : Prop :=
  Tidy system.shared ∧ ∀ client task, system.client client = some task → task.Sound

theorem taskOf_sound {event : RuleEvent} (consistent : RulesConsistent event.before) :
    (ruleTaskOf event).Sound := by
  unfold ruleTaskOf
  cases holds : event.before.client event.input.1 with
  | none => trivial
  | some task => exact consistent.2 _ _ holds

theorem rulesConsistent_taken {event : RuleEvent} (taken : event.Taken (System.step ruleStep))
    (consistent : RulesConsistent event.before) : RulesConsistent event.after := by
  refine ⟨?_, fun client next holds => ?_⟩
  · rw [(rule_taken taken).1]
    exact tidy_run consistent.1 _ _
  · rcases rule_taken_task taken holds with ⟨_, before⟩ | ⟨_, goes⟩
    · exact consistent.2 client next before
    · exact run_sound consistent.1.ruleNames (taskOf_sound consistent) goes

theorem rulesConsistent_run {history : List RuleEvent} {final : RuleSystem}
    (run : RuleRun history final) :
    RulesConsistent final ∧ ∀ event ∈ history, RulesConsistent event.before := by
  have start : RulesConsistent RuleSystem.empty :=
    ⟨⟨List.nodup_nil, fun _ => nofun, fun _ => ⟨[], List.nodup_nil, rfl⟩⟩, fun _ _ => nofun⟩
  exact ⟨run.invariant start fun _ => rulesConsistent_taken,
    run.invariant_before start fun _ => rulesConsistent_taken⟩

/-! ### Whole requests, one after the other -/

/-- **An edit as a whole**: the rules have to keep distinct names. -/
def Edit.perform (edit : Edit) (rules : List Json) : SesResult (List Json) := do
  edit.precheck rules
  let after ← edit.apply rules
  rejectIf (¬ (rowNames after).Nodup) uniqueViolation
  return after

/-- What a request does to one set: `none` is a set that does not exist. -/
inductive SetOperation where
  | create (rules : List Json)
  | remove
  | edit (edit : Edit)

/-- **A request on one set**, and whether it succeeds. -/
def setStep (row : Option (List Json)) (operation : SetOperation) : Bool × Option (List Json) :=
  match operation with
  | .create rules => (row.isNone, some (row.getD rules))
  | .remove => (true, none)
  | .edit edit =>
    match row with
    | none => (false, none)
    | some rules =>
      match edit.perform rules with
      | .ok after => (true, some after)
      | .error _ => (false, some rules)

/-- What the request whose last call this is does to the set. -/
def RuleTask.operation (task : RuleTask) (set : String) : Option SetOperation :=
  match task with
  | .insertSet name none => if name = set then some (.create []) else none
  | .write name none _ rules => if name = set then some (.create rules) else none
  | .write name (some edit) _ _ => if name = set then some (.edit edit) else none
  | .deleteSet name => if name = set then some .remove else none
  | _ => none

/-- The request on the set that succeeds with the step. -/
def pointOn (set : String) (event : RuleEvent) : Option SetOperation :=
  match event.output with
  | some (.ok ()) => (ruleTaskOf event).operation set
  | _ => none

/-- The rules of a set, if it exists. -/
def rowOf (store : RuleStore) (set : String) : Option (List Json) :=
  if setExists store set then some (rulesOf store set) else none

/-- The client has inserted the set of its clone, and is still to write the rules. -/
def Cloning (system : RuleSystem) (set : String) (client : Nat) : Prop :=
  ∃ read rules, system.client client = some (.write set none read rules)

/-- **The rules are still those that were read** when an edit writes, and no rules of a set are
written or deleted between the two calls of another request that clones it. -/
def FreshWrite (event : RuleEvent) : Prop :=
  match ruleTaskOf event with
  | .write set edit read _ =>
    (edit.isSome → rowOf event.before.shared set = some read) ∧
      ∀ other, other ≠ event.input.1 → ¬ Cloning event.before set other
  | .deleteSet set => ∀ other, ¬ Cloning event.before set other
  | _ => True

/-- **How a set looks when the requests on it have left the row.** -/
structure Shows (system : RuleSystem) (set : String) (row : Option (List Json)) : Prop where
  housed : setExists system.shared set = false → rowsOf system.shared set = []
  cloning : ∀ client, Cloning system set client → rowOf system.shared set = some [] ∧ row = none
  settled : (∀ client, ¬ Cloning system set client) → rowOf system.shared set = row

/-! ### One set in one step -/

/-- The set that the call writes. -/
def RuleTask.target : RuleTask → Option String
  | .insertSet name _ => some name
  | .deleteSet name => some name
  | .write set _ _ _ => some set
  | _ => none

theorem operation_other {task : RuleTask} {set : String} (other : task.target ≠ some set) :
    task.operation set = none := by
  have away : ∀ name, some name ≠ some set → ¬ name = set := fun name different same =>
    different (congrArg some same)
  cases task with
  | insertSet name fill =>
    cases fill with
    | none => exact if_neg (away name other)
    | some rules => rfl
  | deleteSet name => exact if_neg (away name other)
  | write name edit read rules =>
    cases edit with
    | none => exact if_neg (away name other)
    | some edit => exact if_neg (away name other)
  | _ => rfl

theorem rowOf_congr {store after : RuleStore} {set : String}
    (sets : setExists after set = setExists store set)
    (rows : rowsOf after set = rowsOf store set) : rowOf after set = rowOf store set := by
  have rules : rulesOf after set = rulesOf store set :=
    congrArg (fun rows => (List.mergeSort rows _).map RuleRow.rule) rows
  rw [rowOf, rowOf, sets, rules]

theorem setExists_insertSet (store : RuleStore) (name set : String) :
    setExists ((insertSet store name).getD store) set = (setExists store set || name == set) := by
  unfold insertSet
  by_cases taken : setExists store name = true
  · rw [if_pos taken]
    by_cases same : name = set
    · subst same
      simp [taken]
    · simp [same]
  · rw [if_neg taken]
    simp [setExists]

theorem setExists_deleteSet (store : RuleStore) (name set : String) :
    setExists (deleteSet store name) set = (setExists store set && name != set) := by
  rw [Bool.eq_iff_iff, Bool.and_eq_true, setExists_iff, setExists_iff, bne_iff_ne]
  refine ⟨fun there => ?_, fun ⟨there, different⟩ => ?_⟩
  · obtain ⟨row, member, rfl⟩ := List.mem_map.mp there
    obtain ⟨old, kept⟩ := List.mem_filter.mp member
    exact ⟨List.mem_map_of_mem old, Ne.symm (bne_iff_ne.mp kept)⟩
  · obtain ⟨row, member, rfl⟩ := List.mem_map.mp there
    exact List.mem_map_of_mem (List.mem_filter.mpr ⟨member, bne_iff_ne.mpr (Ne.symm different)⟩)

theorem setExists_activate (store : RuleStore) (name : Option String) (set : String) :
    setExists (activate store name) set = setExists store set := by
  simp [setExists, activate, Function.comp_def]

theorem setExists_writeRules (store : RuleStore) (name set : String) (rules : List Json) :
    setExists ((writeRules store name rules).getD store) set = setExists store set := by
  unfold writeRules
  split
  all_goals rfl

theorem rowsOf_insertSet (store : RuleStore) (name set : String) :
    rowsOf ((insertSet store name).getD store) set = rowsOf store set := by
  unfold insertSet
  split
  all_goals rfl

/-- **A call leaves the other sets as they are.** -/
theorem run_other {task : RuleTask} {set : String} (other : task.target ≠ some set)
    (places : Places) (store : RuleStore) :
    setExists (task.run places store).2 set = setExists store set ∧
      rowsOf (task.run places store).2 set = rowsOf store set := by
  rw [run_store]
  have away : ∀ name, some name ≠ some set → ¬ name = set := fun name different same =>
    different (congrArg some same)
  cases task with
  | insertSet name fill =>
    have different := away name other
    exact ⟨by simp [setExists_insertSet, different], rowsOf_insertSet store name set⟩
  | deleteSet name =>
    have different := away name other
    exact ⟨by simp [setExists_deleteSet, different],
      by rw [rowsOf_deleteSet, if_neg different]⟩
  | activate name => exact ⟨setExists_activate store name set, rfl⟩
  | write name edit read rules =>
    have different := away name other
    refine ⟨setExists_writeRules store name set rules, ?_⟩
    show rowsOf ((writeRules store name rules).getD store) set = _
    cases written : writeRules store name rules with
    | none => rfl
    | some after => exact (rowsOf_writeRules written set).trans (if_neg different)
  | _ => exact ⟨rfl, rfl⟩

theorem client_of_write {event : RuleEvent} {set : String} {edit : Option Edit}
    {read rules : List Json} (running : ruleTaskOf event = .write set edit read rules) :
    event.before.client event.input.1 = some (.write set edit read rules) := by
  unfold ruleTaskOf at running
  cases holds : event.before.client event.input.1 with
  | none =>
    rw [holds] at running
    cases running
  | some task =>
    rw [holds] at running
    exact congrArg some running

/-- A client that clones a set after the step did before, or has just inserted the set. -/
theorem cloning_after {event : RuleEvent} (taken : event.Taken (System.step ruleStep))
    {set : String} {client : Nat} (cloning : Cloning event.after set client) :
    (client ≠ event.input.1 ∧ Cloning event.before set client) ∨
    (client = event.input.1 ∧ setExists event.before.shared set = false ∧
      ∃ rules, ruleTaskOf event = .insertSet set (some rules)) := by
  obtain ⟨read, rules, holds⟩ := cloning
  rcases rule_taken_task taken holds with ⟨away, before⟩ | ⟨same, goes⟩
  · exact Or.inl ⟨away, read, rules, before⟩
  · obtain ⟨running, free⟩ := run_clones goes
    exact Or.inr ⟨same, free, rules, running⟩

/-- A client that clones a set before a step still does, unless the step is its own. -/
theorem cloning_before {event : RuleEvent} (taken : event.Taken (System.step ruleStep))
    {set : String} {client : Nat} (cloning : Cloning event.before set client) :
    Cloning event.after set client ∨
      ∃ read rules, ruleTaskOf event = .write set none read rules := by
  obtain ⟨read, rules, holds⟩ := cloning
  by_cases same : client = event.input.1
  · subst same
    exact Or.inr ⟨read, rules, by rw [ruleTaskOf, holds]; rfl⟩
  · exact Or.inl ⟨read, rules, ((System.taken_advance taken).2 client same).trans holds⟩

/-- A step that does not write the set, or fails to, leaves how it looks. -/
theorem shows_same {event : RuleEvent} (taken : event.Taken (System.step ruleStep)) {set : String}
    {row : Option (List Json)} (shows : Shows event.before set row)
    (sets : setExists event.after.shared set = setExists event.before.shared set)
    (rows : rowsOf event.after.shared set = rowsOf event.before.shared set)
    (inserts : setExists event.before.shared set = false →
      ∀ rules, ruleTaskOf event ≠ .insertSet set (some rules))
    (writes : ∀ read rules, ruleTaskOf event ≠ .write set none read rules) :
    Shows event.after set row := by
  refine ⟨fun missing => ?_, fun client cloning => ?_, fun settled => ?_⟩
  · rw [rows]
    exact shows.housed (sets ▸ missing)
  · rw [rowOf_congr sets rows]
    rcases cloning_after taken cloning with ⟨_, before⟩ | ⟨_, free, rules, running⟩
    · exact shows.cloning client before
    · exact absurd running (inserts free rules)
  · rw [rowOf_congr sets rows]
    refine shows.settled fun client cloning => ?_
    rcases cloning_before taken cloning with after | ⟨read, rules, running⟩
    · exact settled client after
    · exact writes read rules running

/-- **A step does to the set what the request does that succeeds with it.** -/
def Acts (event : RuleEvent) (set : String) (row : Option (List Json)) : Prop :=
  match pointOn set event with
  | none => Shows event.after set row
  | some operation =>
    (setStep row operation).1 = true ∧ Shows event.after set (setStep row operation).2

theorem acts_insertSet {event : RuleEvent} (taken : event.Taken (System.step ruleStep))
    {set : String} {row : Option (List Json)} {fill : Option (List Json)}
    (running : ruleTaskOf event = .insertSet set fill) (shows : Shows event.before set row) :
    Acts event set row := by
  obtain ⟨shared, ran⟩ := rule_taken taken
  rw [running] at shared ran
  rw [run_store] at shared
  have keeps : ∀ read rules, ruleTaskOf event ≠ .write set none read rules := by
    rw [running]
    nofun
  by_cases there : setExists event.before.shared set = true
  · have fails : insertSet event.before.shared set = none := if_pos there
    simp only [RuleTask.run, fails, Option.getD_none] at ran shared
    have same : Shows event.after set row :=
      shows_same taken shows (by rw [shared]) (by rw [shared])
        (fun missing => absurd there (Bool.eq_false_iff.mp missing)) keeps
    simpa only [Acts, pointOn, ran.1] using same
  · have missing : setExists event.before.shared set = false := Bool.eq_false_iff.mpr there
    have nobody : ∀ client, ¬ Cloning event.before set client := by
      intro client cloning
      have row := (shows.cloning client cloning).1
      rw [rowOf, if_neg there] at row
      cases row
    have none : row = none := by
      rw [← shows.settled nobody, rowOf, if_neg there]
    have rows : rowsOf event.after.shared set = [] := by
      rw [shared, rowsOf_insertSet]
      exact shows.housed missing
    have exists_ : setExists event.after.shared set = true := by
      rw [shared, setExists_insertSet]
      simp
    have shown : rowOf event.after.shared set = some [] := by
      rw [rowOf, if_pos exists_, @rulesOf_numbered _ _ [] rows]
    have goes : insertSet event.before.shared set ≠ Option.none := by
      rw [insertSet, if_neg there]
      nofun
    obtain ⟨after, inserted⟩ := Option.ne_none_iff_exists'.mp goes
    simp only [RuleTask.run, inserted] at ran
    subst none
    cases fill with
    | none =>
      simp only [afterInsert, Option.elim] at ran
      simp only [Acts, pointOn, ran.1, running, RuleTask.operation, if_true]
      refine ⟨rfl, fun wrong => absurd exists_ (Bool.eq_false_iff.mp wrong), fun client cloning => ?_,
        fun _ => shown⟩
      rcases cloning_after taken cloning with ⟨_, before⟩ | ⟨_, _, rules, wrong⟩
      · exact absurd before (nobody client)
      · rw [running] at wrong
        cases wrong
    | some rules =>
      simp only [afterInsert, Option.elim] at ran
      simp only [Acts, pointOn, ran.1]
      exact ⟨fun wrong => absurd exists_ (Bool.eq_false_iff.mp wrong), fun _ _ => ⟨shown, rfl⟩,
        fun settled => absurd ⟨[], rules, ran.2⟩ (settled event.input.1)⟩

theorem acts_deleteSet {event : RuleEvent} (taken : event.Taken (System.step ruleStep))
    {set : String} {row : Option (List Json)} (running : ruleTaskOf event = .deleteSet set)
    (fresh : FreshWrite event) : Acts event set row := by
  obtain ⟨shared, ran⟩ := rule_taken taken
  rw [running] at shared ran
  rw [run_store] at shared
  simp only [RuleTask.run] at ran
  rw [FreshWrite, running] at fresh
  have gone : setExists event.after.shared set = false := by
    rw [shared, setExists_deleteSet]
    simp
  simp only [Acts, pointOn, ran.1, running, RuleTask.operation, if_true]
  refine ⟨rfl, fun _ => ?_, fun client cloning => ?_, fun _ => ?_⟩
  · rw [shared, rowsOf_deleteSet, if_pos rfl]
  · rcases cloning_after taken cloning with ⟨_, before⟩ | ⟨_, _, rules, wrong⟩
    · exact absurd before (fresh client)
    · rw [running] at wrong
      cases wrong
  · rw [rowOf, gone]
    rfl

/-- What a write does to the rules of its set. -/
theorem write_shows {event : RuleEvent} (taken : event.Taken (System.step ruleStep))
    {set : String} {edit : Option Edit} {read rules : List Json}
    (running : ruleTaskOf event = .write set edit read rules)
    (names : (rowNames rules).Nodup) (there : setExists event.before.shared set = true)
    (others : ∀ other, other ≠ event.input.1 → ¬ Cloning event.before set other) :
    event.output = some (.ok ()) ∧ Shows event.after set (some rules) := by
  obtain ⟨shared, ran⟩ := rule_taken taken
  rw [running] at shared ran
  rw [run_store] at shared
  have goes : writeRules event.before.shared set rules ≠ none := by
    rw [writeRules, if_pos names]
    nofun
  obtain ⟨after, written⟩ := Option.ne_none_iff_exists'.mp goes
  simp only [RuleTask.run, written, Option.getD_some] at ran shared
  have rows : rowsOf event.after.shared set = numbered set 0 rules := by
    rw [shared, rowsOf_writeRules written, if_pos rfl]
  have still : setExists event.after.shared set = true := by
    have same := setExists_writeRules event.before.shared set set rules
    rw [written, Option.getD_some] at same
    rw [shared, same, there]
  refine ⟨ran.1, fun wrong => absurd still (Bool.eq_false_iff.mp wrong), fun client cloning => ?_,
    fun _ => by rw [rowOf, if_pos still, rulesOf_numbered rows]⟩
  rcases cloning_after taken cloning with ⟨away, before⟩ | ⟨_, _, _, wrong⟩
  · exact absurd before (others client away)
  · rw [running] at wrong
    cases wrong

theorem exists_of_rowOf {store : RuleStore} {set : String} {rules : List Json}
    (row : rowOf store set = some rules) : setExists store set = true := by
  unfold rowOf at row
  split at row
  · assumption
  · cases row

theorem acts_write {event : RuleEvent} (taken : event.Taken (System.step ruleStep))
    {set : String} {row : Option (List Json)} {edit : Option Edit} {read rules : List Json}
    (running : ruleTaskOf event = .write set edit read rules)
    (sound : (ruleTaskOf event).Sound) (fresh : FreshWrite event)
    (shows : Shows event.before set row) : Acts event set row := by
  have holds := client_of_write running
  rw [FreshWrite, running] at fresh
  rw [running] at sound
  obtain ⟨current, others⟩ := fresh
  cases edit with
  | none =>
    obtain ⟨empty, rfl⟩ := shows.cloning event.input.1 ⟨read, rules, holds⟩
    obtain ⟨output, after⟩ := write_shows taken running sound (exists_of_rowOf empty) others
    simp only [Acts, pointOn, output, running, RuleTask.operation, if_true]
    exact ⟨rfl, after⟩
  | some edit =>
    obtain ⟨checked, applied⟩ := sound
    have now := current rfl
    have nobody : ∀ client, ¬ Cloning event.before set client := by
      intro client cloning
      by_cases same : client = event.input.1
      · subst same
        obtain ⟨_, _, wrong⟩ := cloning
        rw [holds] at wrong
        cases wrong
      · exact others client same cloning
    have before : row = some read := (shows.settled nobody).symm.trans now
    subst before
    by_cases names : (rowNames rules).Nodup
    · obtain ⟨output, after⟩ := write_shows taken running names (exists_of_rowOf now) others
      have performed : edit.perform read = .ok rules :=
        ok_bind checked (ok_bind applied (ok_bind (rejectIf_pass (not_not_intro names)) rfl))
      simp only [Acts, pointOn, output, running, RuleTask.operation, if_true, setStep, performed]
      exact ⟨trivial, after⟩
    · obtain ⟨shared, ran⟩ := rule_taken taken
      have fails : writeRules event.before.shared set rules = none := if_neg names
      rw [running] at shared ran
      simp only [RuleTask.run, fails] at ran shared
      have same : Shows event.after set (some read) :=
        shows_same taken shows (by rw [shared]) (by rw [shared])
          (fun _ rules => by rw [running]; nofun) (fun _ _ => by rw [running]; nofun)
      simpa only [Acts, pointOn, ran.1] using same

theorem acts_taken {event : RuleEvent} (taken : event.Taken (System.step ruleStep))
    (consistent : RulesConsistent event.before) (fresh : FreshWrite event) {set : String}
    {row : Option (List Json)} (shows : Shows event.before set row) : Acts event set row := by
  by_cases other : (ruleTaskOf event).target = some set
  · cases running : ruleTaskOf event with
    | insertSet name fill =>
      rw [running] at other
      cases other
      exact acts_insertSet taken running shows
    | deleteSet name =>
      rw [running] at other
      cases other
      exact acts_deleteSet taken running fresh
    | write name edit read rules =>
      rw [running] at other
      cases other
      exact acts_write taken running (taskOf_sound consistent) fresh shows
    | _ =>
      rw [running] at other
      cases other
  · obtain ⟨sets, rows⟩ := run_other other event.input.2.places event.before.shared
    rw [← (rule_taken taken).1] at sets rows
    have silent : pointOn set event = none := by
      unfold pointOn
      split
      · exact operation_other other
      · rfl
    simp only [Acts, silent]
    refine shows_same taken shows sets rows (fun _ rules running => ?_) fun read rules running => ?_
    · exact other (by rw [running]; rfl)
    · exact other (by rw [running]; rfl)

/-! ### Whole runs -/

/-- **In a run of fresh writes every set looks as its requests, one after the other, leave it.** -/
theorem shows_run {history : List RuleEvent} {final : RuleSystem} (run : RuleRun history final)
    (fresh : ∀ event ∈ history, FreshWrite event) (set : String) :
    ∃ row, Serializes setStep none (history.filterMap (pointOn set)) row ∧
      Shows final set row := by
  induction run with
  | start => exact ⟨none, Serializes.nil setStep none, fun _ => rfl, fun _ => nofun, fun _ => rfl⟩
  | @next history event run taken ih =>
    obtain ⟨row, serial, shows⟩ :=
      ih fun earlier member => fresh earlier (List.mem_append_left _ member)
    have acts := acts_taken taken (rulesConsistent_run run).1 (fresh event (by simp)) shows
    rw [List.filterMap_append]
    unfold Acts at acts
    split at acts
    · rename_i silent
      rw [List.filterMap_cons_none silent, List.filterMap_nil, List.append_nil]
      exact ⟨row, serial, acts⟩
    · rename_i operation point
      rw [List.filterMap_cons_some point, List.filterMap_nil]
      exact ⟨_, serial.next acts.1, acts.2⟩

/-- Every stored rule belongs to a rule set. -/
def Housed (store : RuleStore) : Prop :=
  ∀ row ∈ store.rules, setExists store row.ruleSet = true

theorem Shows.rules {system : RuleSystem} {set : String} {row : Option (List Json)}
    (shows : Shows system set row) : rulesOf system.shared set = row.getD [] := by
  by_cases cloned : ∃ client, Cloning system set client
  · obtain ⟨client, cloning⟩ := cloned
    obtain ⟨empty, rfl⟩ := shows.cloning client cloning
    rw [rowOf, if_pos (exists_of_rowOf empty)] at empty
    exact Option.some.inj empty
  · rw [← shows.settled fun client cloning => cloned ⟨client, cloning⟩]
    by_cases there : setExists system.shared set = true
    · rw [rowOf, if_pos there]
      rfl
    · rw [rowOf, if_neg there]
      exact @rulesOf_numbered _ _ [] (shows.housed (Bool.eq_false_iff.mpr there))

/-! ### Failed requests -/

/-- **A request that changes something does not fail**: the step that changes the store ends it, or
the next step of its client does, which succeeds. -/
def ChangesOnSuccess (history : List RuleEvent) : Prop :=
  ∀ past event rest, history = past ++ event :: rest →
    event.after.shared ≠ event.before.shared →
    event.output = some (.ok ()) ∨
    (event.output = none ∧ ∀ middle next tail, rest = middle ++ next :: tail →
      next.input.1 = event.input.1 → (∀ between ∈ middle, between.input.1 ≠ event.input.1) →
      next.output = some (.ok ()))

/-- A step that changes the store ends its request with success, or inserts the set of a clone. -/
theorem change_taken {event : RuleEvent} (taken : event.Taken (System.step ruleStep))
    (consistent : RulesConsistent event.before)
    (changed : event.after.shared ≠ event.before.shared) :
    event.output = some (.ok ()) ∨ (event.output = none ∧ ∃ name rules,
      event.after.client event.input.1 = some (.write name none [] rules) ∧
        (rowNames rules).Nodup) := by
  obtain ⟨shared, ran⟩ := rule_taken taken
  have sound := taskOf_sound consistent
  cases running : ruleTaskOf event with
  | insertSet name fill =>
    rw [running] at shared ran sound
    simp only [RuleTask.run] at shared ran
    cases inserted : insertSet event.before.shared name with
    | none =>
      rw [inserted] at shared
      exact absurd shared changed
    | some after =>
      rw [inserted] at ran
      cases fill with
      | none => exact Or.inl ran.1
      | some rules => exact Or.inr ⟨ran.1, name, rules, ran.2, sound rules rfl⟩
  | deleteSet name =>
    rw [running] at ran
    exact Or.inl ran.1
  | activate name =>
    rw [running] at ran
    exact Or.inl ran.1
  | write name edit read rules =>
    rw [running] at shared ran
    simp only [RuleTask.run] at shared ran
    cases written : writeRules event.before.shared name rules with
    | none =>
      rw [written] at shared
      exact absurd shared changed
    | some after =>
      rw [written] at ran
      exact Or.inl ran.1
  | _ =>
    rw [running] at shared
    exact absurd shared changed

/-- The rules of a clone are always written. -/
theorem clone_succeeds {event : RuleEvent} (taken : event.Taken (System.step ruleStep))
    {name : String} {read rules : List Json}
    (holds : event.before.client event.input.1 = some (.write name none read rules))
    (names : (rowNames rules).Nodup) : event.output = some (.ok ()) := by
  have running : ruleTaskOf event = .write name none read rules := by
    rw [ruleTaskOf, holds]
    rfl
  obtain ⟨_, ran⟩ := rule_taken taken
  rw [running] at ran
  simp only [RuleTask.run, writeRules, if_pos names] at ran
  exact ran.1

theorem changes_on_success {history : List RuleEvent} {final : RuleSystem}
    (run : RuleRun history final) : ChangesOnSuccess history := by
  rintro past event rest rfl changed
  obtain ⟨runPast, taken, runRest⟩ := run.around
  rcases change_taken taken (rulesConsistent_run runPast).1 changed with done | ⟨output, clone⟩
  · exact Or.inl done
  refine Or.inr ⟨output, ?_⟩
  rintro middle next tail rfl same away
  obtain ⟨name, rules, holds, names⟩ := clone
  obtain ⟨runMiddle, takenNext, _⟩ := runRest.around
  -- the client waits with its rules until its next step
  have waits : next.before.client event.input.1 = some (.write name none [] rules) :=
    @Run.invariant_along _ _ _ _ _ _ _
      (fun system : RuleSystem => system.client event.input.1 = _) runMiddle holds
      fun between member takenBetween before =>
        ((System.taken_advance takenBetween).2 _ (Ne.symm (away between member))).trans before
  exact clone_succeeds takenNext (same ▸ waits) names

/-- **Receipt rule sets under concurrent edits.** At most one set is active, the rules of a set have
distinct names and a failed request has changed nothing, in every run. In a run of fresh writes
every rule has its set, and the rules of a set are what the successful requests on it leave, in the
order in which they ended. -/
theorem rule_sets_consistent {history : List RuleEvent} {final : RuleSystem}
    (run : RuleRun history final) :
    (∀ first ∈ final.shared.sets, ∀ second ∈ final.shared.sets,
      first.active = true → second.active = true → first = second) ∧
    (∀ set, ((rowsOf final.shared set).map RuleRow.name).Nodup) ∧
    ChangesOnSuccess history ∧
    ((∀ event ∈ history, FreshWrite event) →
      Housed final.shared ∧
      ∀ set, ∃ row, Serializes setStep none (history.filterMap (pointOn set)) row ∧
        rulesOf final.shared set = row.getD [] ∧
        ((∀ client, ¬ Cloning final set client) → rowOf final.shared set = row)) := by
  obtain ⟨tidy, _⟩ := (rulesConsistent_run run).1
  refine ⟨tidy.oneActive, tidy.names, changes_on_success run, fun fresh => ⟨?_, fun set => ?_⟩⟩
  · intro row member
    obtain ⟨_, _, shows⟩ := shows_run run fresh row.ruleSet
    by_contra missing
    have none := shows.housed (Bool.eq_false_iff.mpr missing)
    exact List.filter_eq_nil_iff.mp none row member (beq_self_eq_true _)
  · obtain ⟨row, serial, shows⟩ := shows_run run fresh set
    exact ⟨row, serial, shows.rules, shows.settled⟩

/-! ### One request at a time -/

/-- What the task goes by is still so. -/
def RuleTask.Current (task : RuleTask) (store : RuleStore) : Prop :=
  match task with
  | .readRules set _ => setExists store set = true
  | .validate set _ _ read => rowOf store set = some read
  | .write set (some _) read _ => rowOf store set = some read
  | _ => True

theorem prepareWrite_current {set : String} {edit : Edit} {read : List Json} {next : RuleTask}
    {store : RuleStore} (row : rowOf store set = some read)
    (done : prepareWrite set edit read = .ok next) : next.Current store := by
  obtain ⟨rules, _, rfl⟩ := prepareWrite_ok done
  exact row

/-- A call leads to one that goes by what is still so. -/
theorem run_current {task next : RuleTask} {places : Places} {store : RuleStore}
    (current : task.Current store) (goes : (task.run places store).1 = .continues next) :
    next.Current (task.run places store).2 := by
  have leads := run_goes goes
  cases task with
  | begin request =>
    have first := beginRequest_ok leads
    cases request with
    | edit set edit =>
      obtain ⟨there, rfl⟩ := first
      exact there
    | _ =>
      simp only at first
      subst first
      trivial
  | insertSet name fill =>
    obtain ⟨_, rules, rfl, rfl⟩ := leads
    trivial
  | readRules set edit =>
    have row : rowOf store set = some (rulesOf store set) := if_pos current
    obtain ⟨_, ⟨rule, rfl⟩ | done⟩ := leads
    · exact row
    · exact prepareWrite_current row done
  | validate set edit rule read => exact prepareWrite_current current leads
  | deleteSet name => exact leads.elim
  | activate name => exact leads.elim
  | write set edit read rules => exact leads.elim
  | _ =>
    simp only at leads
    subst leads
    trivial

/-- Only the client whose turn it is may have a task under way. -/
def OneAtATime (event : RuleEvent) : Prop :=
  ∀ other, other ≠ event.input.1 → event.before.client other = none

/-- The tasks go by what is still so. -/
def Informed (system : RuleSystem) : Prop :=
  ∀ client task, system.client client = some task → task.Current system.shared

theorem informed_taken {event : RuleEvent} (taken : event.Taken (System.step ruleStep))
    (single : OneAtATime event) (informed : Informed event.before) : Informed event.after := by
  intro client next holds
  rcases rule_taken_task taken holds with ⟨away, held⟩ | ⟨_, goes⟩
  · rw [single client away] at held
    cases held
  · rw [(rule_taken taken).1]
    refine run_current ?_ goes
    unfold ruleTaskOf
    cases before : event.before.client event.input.1 with
    | none => trivial
    | some task => exact informed _ task before

/-- **Requests that are served one at a time are fresh.** -/
theorem fresh_one_at_a_time {history : List RuleEvent} {final : RuleSystem}
    (run : RuleRun history final) (single : ∀ event ∈ history, OneAtATime event) :
    ∀ event ∈ history, FreshWrite event := by
  intro event member
  obtain ⟨past, rest, rfl⟩ := List.append_of_mem member
  have start : Informed RuleSystem.empty := fun _ _ => nofun
  have informed : Informed event.before :=
    run.around.1.invariant_along start fun earlier there taken before =>
      informed_taken taken (single earlier (List.mem_append_left _ there)) before
  have idle := single event member
  have nobody : ∀ set other, other ≠ event.input.1 → ¬ Cloning event.before set other := by
    rintro set other away ⟨_, _, holds⟩
    rw [idle other away] at holds
    cases holds
  unfold FreshWrite
  split
  · rename_i set edit read rules running
    refine ⟨fun edits => ?_, nobody set⟩
    obtain ⟨edit, rfl⟩ := Option.isSome_iff_exists.mp edits
    exact informed _ _ (client_of_write running)
  · rename_i set running
    intro other cloning
    by_cases same : other = event.input.1
    · subst same
      obtain ⟨_, _, holds⟩ := cloning
      rw [ruleTaskOf, holds] at running
      cases running
    · exact nobody set other same cloning
  · trivial

/-- A client that had no turn has no task. -/
theorem idle_of_away {history : List RuleEvent} {final : RuleSystem} (run : RuleRun history final)
    {client : Nat} (away : ∀ event ∈ history, event.input.1 ≠ client) :
    final.client client = none := by
  refine @Run.invariant_along _ _ _ _ _ _ _
    (fun system : RuleSystem => system.client client = none) run rfl fun event member taken before => ?_
  exact ((System.taken_advance taken).2 client (Ne.symm (away event member))).trans before

/-! ### A lost rule -/

def everywhere : Places where
  bucketExists _ := true
  topicExists _ := true

def ruleTurn (client : Nat) (request : RuleRequest) : Nat × RuleTurn :=
  (client, { places := everywhere, request := request })

def createNamed (client : Nat) (name : String) : Nat × RuleTurn :=
  ruleTurn client (.edit "s" (.createRule (.obj [("Name", .str name)]) none))

/-- A set with a rule, a clone of it, and a rule of another client in the set. -/
def orderedTurns : List (Nat × RuleTurn) :=
  List.replicate 2 (ruleTurn 0 (.createRuleSet "s")) ++ List.replicate 4 (createNamed 0 "a") ++
    List.replicate 5 (ruleTurn 0 (.cloneRuleSet "t" "s")) ++ List.replicate 4 (createNamed 1 "b")

theorem rule_sets_consistent_sample : ∃ history final, RuleRun history final ∧
    (rowsOf final.shared "s").length = 2 ∧ (rowsOf final.shared "t").length = 1 ∧ Housed final.shared ∧
    ∀ set, ∃ row, Serializes setStep none (history.filterMap (pointOn set)) row ∧
      rulesOf final.shared set = row.getD [] := by
  have run : RuleRun _ _ := Run.of_trace (System.step ruleStep) orderedTurns RuleSystem.empty
  have turns : ∀ event ∈ Run.trace (System.step ruleStep) RuleSystem.empty orderedTurns,
      event.input.1 < 2 ∧ ∀ other < 2, other ≠ event.input.1 →
        (event.before.client other).isNone = true := by decide +kernel
  have single : ∀ event ∈ Run.trace (System.step ruleStep) RuleSystem.empty orderedTurns,
      OneAtATime event := by
    intro event member other away
    by_cases small : other < 2
    · exact Option.isNone_iff_eq_none.mp ((turns event member).2 other small away)
    · obtain ⟨past, rest, cut⟩ := List.append_of_mem member
      rw [cut] at run turns
      refine idle_of_away run.around.1 fun earlier there => ?_
      have early := (turns earlier (List.mem_append_left _ there)).1
      omega
  obtain ⟨_, _, _, agree⟩ := rule_sets_consistent run
  obtain ⟨housed, serial⟩ := agree (fresh_one_at_a_time run single)
  refine ⟨_, _, run, by decide +kernel, by decide +kernel, housed, fun set => ?_⟩
  obtain ⟨row, order, rules, _⟩ := serial set
  exact ⟨row, order, rules⟩

/-- Both clients read the empty set before either writes its rule. -/
def lostRuleTurns : List (Nat × RuleTurn) :=
  List.replicate 2 (ruleTurn 0 (.createRuleSet "s")) ++
    List.replicate 3 (createNamed 0 "a") ++ List.replicate 4 (createNamed 1 "b") ++
    [createNamed 0 "a"]

def lostRuleHistory : List RuleEvent :=
  Run.trace (System.step ruleStep) RuleSystem.empty lostRuleTurns

/-- **Both rules are created, and one of them is there.** No order of the requests leaves it so. -/
theorem rule_lost : ∃ history final, RuleRun history final ∧
    ∀ order, order.Perm (history.filterMap (pointOn "s")) →
      ¬ ∃ row, Serializes setStep none order row ∧ rulesOf final.shared "s" = row.getD [] := by
  refine ⟨lostRuleHistory, _, Run.of_trace _ _ _, fun order perm => ?_⟩
  rintro ⟨row, ⟨rfl, succeed⟩, rules⟩
  have both : ∀ order ∈ List.permutations' (lostRuleHistory.filterMap (pointOn "s")),
      (∀ event ∈ Run.trace setStep none order, event.output = true) →
        ((Run.final setStep none order).getD []).length = 2 := by decide +kernel
  have one : (rulesOf (Run.final (System.step ruleStep) RuleSystem.empty lostRuleTurns).shared
      "s").length = 1 := by decide +kernel
  rw [rules, both order (List.mem_permutations'.mpr perm) succeed] at one
  cases one

end CloudTwin.Ses
