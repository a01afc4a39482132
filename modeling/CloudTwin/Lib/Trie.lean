/-
**Tries of paths.**

Values are stored under paths of keys, each node holding its children in the order of the keys. A value
that is stored below a leaf replaces the leaf.

* `put`, `lookup_put` — a map in the order of its keys; `InKeyOrder.ext`.
* `Node`, `insertPath`, `build` — the trie of some entries.
* `under`, `nodeOf` — the entries under a key, and the node they make; `lookup_build`.
* `branches`, `under_branches` — entries put together from those under each key.
* `nodeOf_map` — entries with paths left make the trie of them: the order in which they came matters
  no more than the order of the entries under each key.
-/

import Mathlib

namespace CloudTwin.Lib.Trie

variable {κ α β : Type} [LinearOrder κ]

/-! ### Maps in the order of their keys -/

def InKeyOrder (entries : List (κ × α)) : Prop :=
  entries.Pairwise fun first second => first.1 < second.1

/-- The value under a key is replaced, or put in its place. -/
def put (key : κ) (value : α) : List (κ × α) → List (κ × α)
  | [] => [(key, value)]
  | entry :: rest =>
    if key < entry.1 then (key, value) :: entry :: rest
    else if key = entry.1 then (key, value) :: rest
    else entry :: put key value rest

theorem mem_put {key : κ} {value : α} {entry : κ × α} :
    ∀ {entries : List (κ × α)}, entry ∈ put key value entries → entry = (key, value) ∨ entry ∈ entries
  | [], member => .inl (List.mem_singleton.mp member)
  | first :: rest, member => by
    unfold put at member
    split at member
    · rcases List.mem_cons.mp member with same | later
      · exact .inl same
      · exact .inr later
    · split at member
      · rcases List.mem_cons.mp member with same | later
        · exact .inl same
        · exact .inr (List.mem_cons_of_mem _ later)
      · rcases List.mem_cons.mp member with same | later
        · exact .inr (same ▸ List.mem_cons_self)
        · exact (mem_put later).imp id (List.mem_cons_of_mem _)

theorem InKeyOrder.put {key : κ} {value : α} {entries : List (κ × α)} (order : InKeyOrder entries) :
    InKeyOrder (put key value entries) := by
  induction entries with
  | nil => exact List.pairwise_singleton _ _
  | cons first rest ih =>
    obtain ⟨least, sorted⟩ := List.pairwise_cons.mp order
    unfold Trie.put
    split
    · rename_i less
      refine List.pairwise_cons.mpr ⟨fun entry member => ?_, order⟩
      rcases List.mem_cons.mp member with rfl | later
      · exact less
      · exact less.trans (least entry later)
    · split
      · rename_i same
        exact List.pairwise_cons.mpr ⟨fun entry member => same ▸ least entry member, sorted⟩
      · rename_i notLess different
        refine List.pairwise_cons.mpr ⟨fun entry member => ?_, ih sorted⟩
        rcases mem_put member with rfl | later
        · exact lt_of_le_of_ne (not_lt.mp notLess) fun same => different same.symm
        · exact least entry later

theorem lookup_cons (key other : κ) (value : α) (rest : List (κ × α)) :
    ((other, value) :: rest).lookup key = if key = other then some value else rest.lookup key := by
  rw [List.lookup_cons]
  by_cases same : key = other
  · rw [if_pos same, beq_iff_eq.mpr same]
  · rw [if_neg same, beq_false_of_ne same]

theorem lookup_put (key other : κ) (value : α) (entries : List (κ × α)) :
    (put key value entries).lookup other =
      if other = key then some value else entries.lookup other := by
  induction entries with
  | nil => exact lookup_cons other key value []
  | cons first rest ih =>
    obtain ⟨name, held⟩ := first
    unfold put
    split
    · rw [lookup_cons]
    · split
      · rename_i same
        rw [lookup_cons, lookup_cons]
        split
        · rfl
        · rename_i different
          rw [if_neg fun wrong => different (wrong.trans same.symm)]
      · rename_i notLess different
        rw [lookup_cons, ih, lookup_cons]
        by_cases here : other = name
        · rw [if_pos here, if_pos here, if_neg fun wrong => different (wrong.symm.trans here)]
        · rw [if_neg here, if_neg here]

theorem lookup_of_mem {entries : List (κ × α)} (order : InKeyOrder entries) {key : κ} {value : α}
    (member : (key, value) ∈ entries) : entries.lookup key = some value := by
  induction entries with
  | nil => exact absurd member List.not_mem_nil
  | cons first rest ih =>
    obtain ⟨name, held⟩ := first
    obtain ⟨least, sorted⟩ := List.pairwise_cons.mp order
    rw [lookup_cons]
    rcases List.mem_cons.mp member with same | later
    · obtain ⟨rfl, rfl⟩ := Prod.mk.inj same
      rw [if_pos rfl]
    · rw [if_neg (ne_of_gt (least _ later)), ih sorted later]

theorem mem_of_lookup {entries : List (κ × α)} {key : κ} {value : α}
    (found : entries.lookup key = some value) : (key, value) ∈ entries := by
  induction entries with
  | nil => cases found
  | cons first rest ih =>
    obtain ⟨name, held⟩ := first
    rw [lookup_cons] at found
    split at found
    · rename_i same
      rw [same, Option.some.inj found]
      exact List.mem_cons_self
    · exact List.mem_cons_of_mem _ (ih found)

/-- **A map in order is determined by its values.** -/
theorem InKeyOrder.ext {first second : List (κ × α)} (one : InKeyOrder first) (two : InKeyOrder second)
    (same : ∀ key, first.lookup key = second.lookup key) : first = second := by
  have nodup : ∀ {entries : List (κ × α)}, InKeyOrder entries → entries.Nodup := fun order =>
    order.imp fun less equal => absurd (equal ▸ less) (lt_irrefl _)
  have members : ∀ entry, entry ∈ first ↔ entry ∈ second := by
    rintro ⟨key, value⟩
    constructor
    · exact fun member => mem_of_lookup ((same key).symm.trans (lookup_of_mem one member))
    · exact fun member => mem_of_lookup ((same key).trans (lookup_of_mem two member))
  exact ((List.perm_ext_iff_of_nodup (nodup one) (nodup two)).mpr members).eq_of_pairwise
    (fun _ _ _ _ less more => absurd (less.trans more) (lt_irrefl _)) one two

/-! ### Tries -/

inductive Node (κ α : Type) where
  | leaf (value : α)
  | map (children : List (κ × Node κ α))

/-- The children of a node; a leaf that is stored below has none. -/
def childrenOf : Option (Node κ α) → List (κ × Node κ α)
  | some (.map children) => children
  | _ => []

/-- A value is stored under a path. -/
def insertPath (children : List (κ × Node κ α)) : List κ → α → List (κ × Node κ α)
  | [], _ => children
  | [key], value => put key (.leaf value) children
  | key :: next :: path, value =>
    put key (.map (insertPath (childrenOf (children.lookup key)) (next :: path) value)) children

/-- The node after a value is stored at a path below it. -/
def step (node : Option (Node κ α)) (path : List κ) (value : α) : Node κ α :=
  if path = [] then .leaf value else .map (insertPath (childrenOf node) path value)

theorem insertPath_cons (children : List (κ × Node κ α)) (key : κ) (path : List κ) (value : α) :
    insertPath children (key :: path) value = put key (step (children.lookup key) path value) children := by
  cases path <;> rfl

/-- The trie of some entries. -/
def build (entries : List (List κ × α)) : List (κ × Node κ α) :=
  entries.foldl (fun children entry => insertPath children entry.1 entry.2) []

theorem insertPath_order {children : List (κ × Node κ α)} (order : InKeyOrder children) (path : List κ)
    (value : α) : InKeyOrder (insertPath children path value) := by
  cases path with
  | nil => exact order
  | cons key path =>
    rw [insertPath_cons]
    exact order.put

theorem build_order (entries : List (List κ × α)) : InKeyOrder (build entries) := by
  have every : ∀ (entries : List (List κ × α)) (children : List (κ × Node κ α)), InKeyOrder children →
      InKeyOrder (entries.foldl (fun children entry => insertPath children entry.1 entry.2) children) := by
    intro entries
    induction entries with
    | nil => exact fun _ order => order
    | cons entry rest ih => exact fun children order => ih _ (insertPath_order order _ _)
  exact every entries [] List.Pairwise.nil

/-- What is left of a path under a key. -/
def behind (key : κ) (entry : List κ × α) : Option (List κ × α) :=
  match entry.1 with
  | first :: path => if first = key then some (path, entry.2) else none
  | [] => none

/-- The entries under a key. -/
def under (key : κ) (entries : List (List κ × α)) : List (List κ × α) :=
  entries.filterMap (behind key)

/-- The node that entries make. -/
def nodeOf (node : Option (Node κ α)) (entries : List (List κ × α)) : Option (Node κ α) :=
  entries.foldl (fun node entry => some (step node entry.1 entry.2)) node

theorem lookup_insertPath (children : List (κ × Node κ α)) (entry : List κ × α) (key : κ) :
    (insertPath children entry.1 entry.2).lookup key =
      match behind key entry with
      | some rest => some (step (children.lookup key) rest.1 rest.2)
      | none => children.lookup key := by
  obtain ⟨path, value⟩ := entry
  cases path with
  | nil => rfl
  | cons first path =>
    show (insertPath children (first :: path) value).lookup key = _
    rw [insertPath_cons, lookup_put]
    unfold behind
    dsimp only
    by_cases same : first = key
    · rw [if_pos same.symm, if_pos same, same]
    · rw [if_neg fun wrong => same wrong.symm, if_neg same]

/-- **Under each key stands the node of the entries under it.** -/
theorem lookup_build (entries : List (List κ × α)) (key : κ) :
    (build entries).lookup key = nodeOf none (under key entries) := by
  have every : ∀ (entries : List (List κ × α)) (children : List (κ × Node κ α)),
      (entries.foldl (fun children entry => insertPath children entry.1 entry.2) children).lookup key =
        nodeOf (children.lookup key) (under key entries) := by
    intro entries
    induction entries with
    | nil => exact fun _ => rfl
    | cons entry rest ih =>
      intro children
      rw [List.foldl_cons, ih, lookup_insertPath]
      unfold under
      rw [List.filterMap_cons]
      cases behind key entry with
      | none => rfl
      | some left => rfl
  exact every entries []

/-- **Entries with paths left make the trie of them.** -/
theorem nodeOf_map {entries : List (List κ × α)} (some' : entries ≠ [])
    (paths : ∀ entry ∈ entries, entry.1 ≠ []) : nodeOf none entries = some (.map (build entries)) := by
  have every : ∀ (entries : List (List κ × α)) (children : List (κ × Node κ α)),
      (∀ entry ∈ entries, entry.1 ≠ []) → nodeOf (some (.map children)) entries = some (.map
        (entries.foldl (fun children entry => insertPath children entry.1 entry.2) children)) := by
    intro entries
    induction entries with
    | nil => exact fun _ _ => rfl
    | cons entry rest ih =>
      intro children paths
      have here : step (some (.map children)) entry.1 entry.2 =
          .map (insertPath children entry.1 entry.2) := if_neg (paths entry List.mem_cons_self)
      show nodeOf (some (step (some (.map children)) entry.1 entry.2)) rest = _
      rw [here, ih _ fun other member => paths other (List.mem_cons_of_mem _ member)]
      rfl
  cases entries with
  | nil => exact absurd rfl some'
  | cons entry rest =>
    have here : step (none : Option (Node κ α)) entry.1 entry.2 =
        .map (insertPath [] entry.1 entry.2) := if_neg (paths entry List.mem_cons_self)
    show nodeOf (some (step none entry.1 entry.2)) rest = _
    rw [here, every _ _ fun other member => paths other (List.mem_cons_of_mem _ member)]
    rfl

/-- The entries under a key, each key put before its entries. -/
theorem under_prepend (key other : κ) (entries : List (List κ × α)) :
    under key (entries.map fun entry => (other :: entry.1, entry.2)) =
      if other = key then entries else [] := by
  unfold under
  rw [List.filterMap_map]
  by_cases same : other = key
  · rw [if_pos same]
    have keeps : (behind key ∘ fun entry : List κ × α => (other :: entry.1, entry.2)) = some :=
      funext fun entry => if_pos same
    rw [keeps, List.filterMap_some]
  · rw [if_neg same]
    have drops : (behind key ∘ fun entry : List κ × α => (other :: entry.1, entry.2)) = fun _ => none :=
      funext fun entry => if_neg same
    rw [drops, List.filterMap_none]

theorem under_perm {first second : List (List κ × α)} (perm : first.Perm second) (key : κ) :
    (under key first).Perm (under key second) :=
  perm.filterMap _

/-! ### Branches -/

/-- The entries of some branches, the key of each put before its entries. -/
def branches (parts : List (κ × List (List κ × α))) : List (List κ × α) :=
  parts.flatMap fun part => part.2.map fun entry => (part.1 :: entry.1, entry.2)

theorem under_cons (key : κ) (part : κ × List (List κ × α)) (rest : List (κ × List (List κ × α))) :
    under key (branches (part :: rest)) =
      (if part.1 = key then part.2 else []) ++ under key (branches rest) := by
  unfold branches
  rw [List.flatMap_cons]
  unfold under
  rw [List.filterMap_append]
  congr 1
  exact under_prepend key part.1 part.2

theorem under_absent {key : κ} {parts : List (κ × List (List κ × α))}
    (absent : key ∉ parts.map Prod.fst) : under key (branches parts) = [] := by
  induction parts with
  | nil => rfl
  | cons part rest ih =>
    rw [List.map_cons, List.mem_cons, not_or] at absent
    rw [under_cons, if_neg fun same => absent.1 same.symm, ih absent.2]
    rfl

/-- **Under the key of a branch stand its entries.** -/
theorem under_branches {parts : List (κ × List (List κ × α))} (distinct : (parts.map Prod.fst).Nodup)
    {part : κ × List (List κ × α)} (member : part ∈ parts) : under part.1 (branches parts) = part.2 := by
  induction parts with
  | nil => exact absurd member List.not_mem_nil
  | cons first rest ih =>
    rw [List.map_cons, List.nodup_cons] at distinct
    rw [under_cons]
    rcases List.mem_cons.mp member with rfl | later
    · rw [if_pos rfl, under_absent distinct.1, List.append_nil]
    · have other : first.1 ≠ part.1 := fun same =>
        distinct.1 (same.symm ▸ List.mem_map_of_mem later)
      rw [if_neg other, ih distinct.2 later]
      rfl

omit [LinearOrder κ] in
theorem paths_branches {parts : List (κ × List (List κ × α))} :
    ∀ entry ∈ branches parts, entry.1 ≠ [] := by
  intro entry member
  obtain ⟨part, -, inside⟩ := List.mem_flatMap.mp member
  obtain ⟨left, -, rfl⟩ := List.mem_map.mp inside
  exact List.cons_ne_nil _ _

end CloudTwin.Lib.Trie
