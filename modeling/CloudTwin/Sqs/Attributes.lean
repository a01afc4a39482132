/-
**What a queue's attributes can be.**

* `validateEach_get` — a validated map holds values that came out of `validate_attributes`.
* `mergeAttributes_get` — a name of a merged map: the request's value, or the old one if the
  request does not mention the name.
* `Checked` and `checked_merge` — every stored attribute passed its own check, and goes on to.
* `attrI64_range` — so the timeout a queue gives its messages is between 0 and 43200, and the delay
  between 0 and 900.
* `isFifo_merge` — SetQueueAttributes does not turn a queue into the other kind.
-/

import CloudTwin.Sqs.Queues

namespace CloudTwin.Sqs

open Lib Lib.Text

set_option linter.unusedSectionVars false

section External

variable [External]

/-! ### Maps -/

theorem getElem_insert {α : Type} (map : BTreeMap α) (name other : String) (value : α) :
    (map.insert name value)[other]? = if name = other then some value else map[other]? := by
  rw [Std.ExtTreeMap.getElem?_insert]
  simp only [Std.LawfulEqCmp.compare_eq_iff_eq]

theorem getElem_erase {α : Type} (map : BTreeMap α) (name other : String) :
    (map.erase name)[other]? = if name = other then none else map[other]? := by
  rw [Std.ExtTreeMap.getElem?_erase]
  simp only [Std.LawfulEqCmp.compare_eq_iff_eq]

theorem toList_distinct {α : Type} (map : BTreeMap α) :
    map.toList.Pairwise fun first second => first.1 ≠ second.1 := by
  refine Std.ExtTreeMap.distinct_keys_toList.imp fun different => ?_
  rwa [Std.LawfulEqCmp.compare_eq_iff_eq] at different

theorem toList_lookup {α : Type} (map : BTreeMap α) (name : String) :
    map.toList.lookup name = map[name]? := by
  apply Option.ext
  intro value
  rw [← Std.ExtTreeMap.mem_toList_iff_getElem?_eq_some]
  have distinct := toList_distinct map
  generalize map.toList = entries at distinct
  induction entries with
  | nil => simp
  | cons entry entries ih =>
    obtain ⟨first, rest⟩ := List.pairwise_cons.mp distinct
    rw [List.lookup_cons, List.mem_cons]
    by_cases same : name = entry.1
    · have absent : (name, value) ∉ entries := fun member => first _ member same.symm
      simp only [same, beq_self_eq_true, Option.some.injEq]
      constructor
      · rintro rfl
        exact Or.inl rfl
      · rintro (equal | member)
        · rw [← equal]
        · exact absurd (same ▸ member) absent
    · have different : (name == entry.1) = false := beq_eq_false_iff_ne.mpr same
      rw [different]
      simp only [ih rest]
      constructor
      · exact Or.inr
      · rintro (equal | member)
        · exact absurd (congrArg Prod.fst equal) same
        · exact member

/-! ### Validation -/

theorem validateEach_get {store : Store} {fifo : Bool} (entries : List (String × String)) :
    ∀ out result, validateEach store fifo entries out = .ok result → ∀ name value,
      result[name]? = some value → out[name]? = some value ∨
        ∃ raw, (name, raw) ∈ entries ∧ validateAttribute store fifo name raw = .ok value := by
  induction entries with
  | nil =>
    intro out result done name value found
    cases done
    exact Or.inl found
  | cons entry entries ih =>
    obtain ⟨key, raw⟩ := entry
    intro out result done name value found
    obtain ⟨normalized, checked, rest⟩ := bind_ok done
    rcases ih _ _ rest name value found with old | ⟨raw, member, valid⟩
    · rw [getElem_insert] at old
      by_cases same : key = name
      · rw [if_pos same] at old
        cases old
        exact Or.inr ⟨raw, by rw [same]; exact List.mem_cons_self, same ▸ checked⟩
      · rw [if_neg same] at old
        exact Or.inl old
    · exact Or.inr ⟨raw, List.mem_cons_of_mem _ member, valid⟩

/-- **A validated attribute came out of its own check.** -/
theorem validateAttributes_get {store : Store} {queueName : String} {attributes : BTreeMap String}
    {creating : Bool} {normalized : BTreeMap String}
    (done : validateAttributes store queueName attributes creating = .ok normalized)
    {name value : String} (found : normalized[name]? = some value) :
    ∃ fifo raw, validateAttribute store fifo name raw = .ok value := by
  unfold validateAttributes at done
  simp only at done
  rcases validateEach_get _ _ _ done name value found with old | ⟨raw, _, valid⟩
  · rw [Std.ExtTreeMap.getElem?_empty] at old
    cases old
  · exact ⟨_, raw, valid⟩

/-- Every stored attribute passed its own check. -/
def Checked (attributes : BTreeMap String) : Prop :=
  ∀ name value, attributes[name]? = some value →
    ∃ store fifo raw, validateAttribute store fifo name raw = .ok value

theorem checked_stored {store : Store} {queueName : String} {attributes : BTreeMap String}
    {normalized : BTreeMap String}
    (done : validateAttributes store queueName attributes true = .ok normalized) :
    Checked (storedAttributes normalized) := by
  intro name value found
  rw [storedAttributes, Std.ExtTreeMap.getElem?_filter] at found
  obtain ⟨original, _⟩ := Option.pfilter_eq_some_iff.mp found
  obtain ⟨fifo, raw, valid⟩ := validateAttributes_get done original
  exact ⟨store, fifo, raw, valid⟩

/-! ### Merging -/

theorem merge_get (entries : List (String × String)) (name : String) :
    ∀ current : BTreeMap String,
      (entries.Pairwise fun first second => first.1 ≠ second.1) →
      (entries.foldl (fun merged (entry : String × String) =>
        if entry.2.isEmpty then merged.erase entry.1 else merged.insert entry.1 entry.2)
        current)[name]? =
      match entries.lookup name with
      | some value => if value.isEmpty then none else some value
      | none => current[name]? := by
  induction entries with
  | nil => exact fun _ _ => rfl
  | cons entry entries ih =>
    intro current distinct
    obtain ⟨key, value⟩ := entry
    obtain ⟨first, rest⟩ := List.pairwise_cons.mp distinct
    rw [List.foldl_cons, ih _ rest, List.lookup_cons]
    by_cases same : name = key
    · have absent : entries.lookup name = none := by
        rw [List.lookup_eq_none_iff]
        intro other member
        rw [same]
        exact bne_iff_ne.mpr (first other member)
      rw [absent, same, beq_self_eq_true]
      simp only
      by_cases empty : value.isEmpty = true
      · rw [if_pos empty, if_pos empty, getElem_erase, if_pos rfl]
      · rw [if_neg empty, if_neg empty, getElem_insert, if_pos rfl]
    · have different : (name == key) = false := beq_eq_false_iff_ne.mpr same
      rw [different]
      simp only
      cases entries.lookup name with
      | some found => rfl
      | none =>
        simp only
        by_cases empty : value.isEmpty = true
        · rw [if_pos empty, getElem_erase, if_neg (Ne.symm same)]
        · rw [if_neg empty, getElem_insert, if_neg (Ne.symm same)]

/-- **A name of a merged map.** -/
theorem mergeAttributes_get (current normalized : BTreeMap String) (name : String) :
    (mergeAttributes current normalized)[name]? =
      match normalized[name]? with
      | some value => if value.isEmpty then none else some value
      | none => current[name]? := by
  rw [← toList_lookup normalized name]
  exact merge_get _ name current (toList_distinct normalized)

theorem checked_merge {store : Store} {queueName : String} {attributes current : BTreeMap String}
    {normalized : BTreeMap String} (checked : Checked current)
    (done : validateAttributes store queueName attributes false = .ok normalized) :
    Checked (mergeAttributes current normalized) := by
  intro name value found
  rw [mergeAttributes_get] at found
  cases setting : normalized[name]? with
  | none =>
    rw [setting] at found
    exact checked name value found
  | some asked =>
    rw [setting] at found
    simp only at found
    split at found
    · cases found
    · cases found
      obtain ⟨fifo, raw, valid⟩ := validateAttributes_get done setting
      exact ⟨store, fifo, raw, valid⟩

/-! ### Numbers -/

theorem parseIntAttr_ok {name raw value : String} {min max : Int}
    (done : parseIntAttr name raw min max = .ok value) :
    ∃ number, min ≤ number ∧ number ≤ max ∧ value = toString number := by
  unfold parseIntAttr at done
  split at done
  · rename_i number _
    split at done
    · rename_i range
      cases done
      exact ⟨number, range.1, range.2, rfl⟩
    · cases done
  · cases done

/-- The number of an attribute lies where its check puts it. -/
theorem attrI64_range {queue : SqsQueue} (checked : Checked queue.attributes) (name : String)
    {low high : Int} (natural : 0 ≤ low) (bounded : high < 2 ^ 63)
    (rule : ∀ store fifo raw, validateAttribute store fifo name raw = parseIntAttr name raw low high)
    (default : low ≤ ((defaultAttr name).bind parseI64).getD 0 ∧
      ((defaultAttr name).bind parseI64).getD 0 ≤ high) :
    low ≤ queue.attrI64 name ∧ queue.attrI64 name ≤ high := by
  unfold SqsQueue.attrI64
  cases setting : queue.attributes[name]? with
  | none => exact default
  | some value =>
    obtain ⟨store, fifo, raw, valid⟩ := checked _ _ setting
    rw [rule] at valid
    obtain ⟨number, least, most, rfl⟩ := parseIntAttr_ok valid
    obtain ⟨count, rfl⟩ := Int.eq_ofNat_of_zero_le (natural.trans least)
    have small : count < 2 ^ 63 := by omega
    rw [Option.bind_some, parseI64_toString count small]
    exact ⟨least, most⟩

theorem visibilityTimeout_range {queue : SqsQueue} (checked : Checked queue.attributes) :
    0 ≤ queue.attrI64 "VisibilityTimeout" ∧
      queue.attrI64 "VisibilityTimeout" ≤ maxVisibility :=
  attrI64_range checked "VisibilityTimeout" le_rfl (by decide) (fun _ _ _ => rfl) (by decide)

theorem delaySeconds_range {queue : SqsQueue} (checked : Checked queue.attributes) :
    0 ≤ queue.attrI64 "DelaySeconds" ∧ queue.attrI64 "DelaySeconds" ≤ 900 :=
  attrI64_range checked "DelaySeconds" le_rfl (by decide) (fun _ _ _ => rfl) (by decide)

/-! ### The kind of a queue -/

theorem parseBoolAttr_ok {name raw value : String} (done : parseBoolAttr name raw = .ok value) :
    value = "true" ∨ value = "false" := by
  unfold parseBoolAttr at done
  split at done
  · cases done
    exact Or.inl rfl
  · cases done
    exact Or.inr rfl
  · cases done

/-- **SetQueueAttributes keeps the kind of the queue.** -/
theorem isFifo_merge {store : Store} {queueName : String} {attributes current : BTreeMap String}
    {normalized : BTreeMap String} {fifo : Bool} (kind : attrBoolOf current "FifoQueue" = fifo)
    (done : validateAttributes store queueName attributes false = .ok normalized)
    (allowed : ∀ value, normalized["FifoQueue"]? = some value → (value == "true") = fifo) :
    attrBoolOf (mergeAttributes current normalized) "FifoQueue" = fifo := by
  unfold attrBoolOf
  rw [mergeAttributes_get]
  cases setting : normalized["FifoQueue"]? with
  | none => exact kind
  | some value =>
    obtain ⟨_, raw, valid⟩ := validateAttributes_get done setting
    have same := allowed value setting
    rcases parseBoolAttr_ok (show parseBoolAttr "FifoQueue" raw = .ok value from valid) with
      rfl | rfl
    · rw [← same]
      rfl
    · rw [← same]
      rfl

end External

end CloudTwin.Sqs
