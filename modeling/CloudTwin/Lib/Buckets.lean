/-
**Values collected under their keys.**

* `push`, `collect` — a sorted map of lists, filled by `entry(key).or_default().push(value)`.
* `under` — the values of a key, in their order.
* `collect_spec` — the map holds each key once, with its values.
-/

import Mathlib.Data.List.Sort

namespace CloudTwin.Lib.Buckets

variable {κ α : Type} [DecidableEq κ]

/-- `map.entry(key).or_default().push(value)`, the keys in an order. -/
def push (before : κ → κ → Prop) [DecidableRel before] (key : κ) (value : α)
    (buckets : List (κ × List α)) : List (κ × List α) :=
  if key ∈ buckets.map Prod.fst then
    buckets.map fun bucket => if bucket.1 = key then (key, bucket.2 ++ [value]) else bucket
  else buckets.orderedInsert (fun one other => before one.1 other.1) (key, [value])

def collectInto (before : κ → κ → Prop) [DecidableRel before] :
    List (κ × List α) → List (κ × α) → List (κ × List α)
  | buckets, [] => buckets
  | buckets, item :: items => collectInto before (push before item.1 item.2 buckets) items

def collect (before : κ → κ → Prop) [DecidableRel before] (items : List (κ × α)) :
    List (κ × List α) :=
  collectInto before [] items

/-- The values that stand under a key. -/
def under (items : List (κ × α)) (key : κ) : List α :=
  (items.filter fun item => item.1 = key).map Prod.snd

theorem under_append (first second : List (κ × α)) (key : κ) :
    under (first ++ second) key = under first key ++ under second key := by
  rw [under, List.filter_append, List.map_append]
  rfl

theorem under_same (key : κ) (value : α) : under [(key, value)] key = [value] := by
  simp [under]

theorem under_other {key other : κ} (different : key ≠ other) (value : α) :
    under [(key, value)] other = [] := by
  rw [under, List.filter_cons_of_neg (by simpa using different)]
  rfl

/-- The map holds the items: each key that occurs once, with its values. -/
structure Holds (items : List (κ × α)) (buckets : List (κ × List α)) : Prop where
  keys : (buckets.map Prod.fst).Nodup
  values : ∀ key values, (key, values) ∈ buckets ↔ values = under items key ∧ values ≠ []

theorem Holds.absent {items : List (κ × α)} {buckets : List (κ × List α)}
    (holds : Holds items buckets) {key : κ} (absent : key ∉ buckets.map Prod.fst) :
    under items key = [] := by
  by_contra some'
  exact absent (List.mem_map_of_mem ((holds.values key _).mpr ⟨rfl, some'⟩))

/-- **A push** adds one item. -/
theorem Holds.push {items : List (κ × α)} {buckets : List (κ × List α)}
    (holds : Holds items buckets) (before : κ → κ → Prop) [DecidableRel before] (key : κ) (value : α) :
    Holds (items ++ [(key, value)]) (push before key value buckets) := by
  unfold Buckets.push
  by_cases present : key ∈ buckets.map Prod.fst
  · rw [if_pos present]
    obtain ⟨held, member, named⟩ := List.mem_map.mp present
    obtain ⟨name, old⟩ := held
    obtain rfl : name = key := named
    have known := ((holds.values name old).mp member).1
    constructor
    · have kept : (buckets.map fun bucket =>
          if bucket.1 = name then (name, bucket.2 ++ [value]) else bucket).map Prod.fst =
          buckets.map Prod.fst := by
        rw [List.map_map]
        refine List.map_congr_left fun bucket _ => ?_
        show (if bucket.1 = name then (name, bucket.2 ++ [value]) else bucket).1 = bucket.1
        split
        · rename_i same
          exact same.symm
        · rfl
      rw [kept]
      exact holds.keys
    · intro other values
      rw [under_append, List.mem_map]
      by_cases same : name = other
      · rw [← same, under_same]
        constructor
        · rintro ⟨⟨here, list⟩, inside, equal⟩
          by_cases mine : here = name
          · rw [if_pos mine] at equal
            rw [mine] at inside
            obtain ⟨_, rfl⟩ := Prod.mk.inj equal
            rw [← ((holds.values name list).mp inside).1]
            exact ⟨rfl, List.append_ne_nil_of_right_ne_nil _ (List.cons_ne_nil _ _)⟩
          · rw [if_neg mine] at equal
            exact absurd (Prod.mk.inj equal).1 mine
        · rintro ⟨rfl, _⟩
          exact ⟨(name, old), member, by rw [if_pos rfl, known]⟩
      · rw [under_other same, List.append_nil, ← holds.values]
        constructor
        · rintro ⟨⟨here, list⟩, inside, equal⟩
          by_cases mine : here = name
          · rw [if_pos mine] at equal
            exact absurd (Prod.mk.inj equal).1 same
          · rw [if_neg mine] at equal
            exact equal ▸ inside
        · intro inside
          exact ⟨(other, values), inside, if_neg fun mine => same mine.symm⟩
  · rw [if_neg present]
    have none := holds.absent present
    constructor
    · have order := ((List.perm_orderedInsert (fun one other : κ × List α => before one.1 other.1)
        (key, [value]) buckets).map Prod.fst).nodup_iff
      rw [order, List.map_cons, List.nodup_cons]
      exact ⟨present, holds.keys⟩
    · intro other values
      rw [List.mem_orderedInsert, under_append]
      by_cases same : key = other
      · rw [← same, under_same, none, List.nil_append]
        constructor
        · rintro (equal | inside)
          · obtain ⟨_, rfl⟩ := Prod.mk.inj equal
            exact ⟨rfl, List.cons_ne_nil _ _⟩
          · exact absurd (List.mem_map_of_mem inside) present
        · rintro ⟨rfl, _⟩
          exact Or.inl rfl
      · rw [under_other same, List.append_nil, ← holds.values]
        constructor
        · rintro (equal | inside)
          · exact absurd (Prod.mk.inj equal).1.symm same
          · exact inside
        · exact Or.inr

/-- **What is collected** holds each key once, with its values. -/
theorem collect_spec (before : κ → κ → Prop) [DecidableRel before] (items : List (κ × α)) :
    Holds items (collect before items) := by
  have run : ∀ (items done : List (κ × α)) (buckets : List (κ × List α)), Holds done buckets →
      Holds (done ++ items) (collectInto before buckets items) := by
    intro items
    induction items with
    | nil =>
      intro done buckets holds
      rw [List.append_nil]
      exact holds
    | cons item items ih =>
      intro done buckets holds
      have step := ih _ _ (holds.push before item.1 item.2)
      rw [List.append_assoc] at step
      exact step
  have empty : Holds ([] : List (κ × α)) [] := by
    refine ⟨List.nodup_nil, fun key values => ?_⟩
    constructor
    · exact fun wrong => absurd wrong List.not_mem_nil
    · rintro ⟨rfl, some'⟩
      exact absurd rfl some'
  exact run items [] [] empty

end CloudTwin.Lib.Buckets
