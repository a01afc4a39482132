/-
**Query parameters as nested JSON.**

The AWS Query protocol writes nested data as flat parameters: the keys of objects joined by dots, the
items of a list numbered behind `member` or `entry`. `queryToJson` reads the parameters under a prefix
back. It stores them in a trie as they come, and only then reads the trie: keys that are all numbers
make an array in the order of the numbers, a single key `member` or `entry` stands for what is below it.

* `queryToJson`, `convert` — the code.
* `flatten`, `paramOf` — a value as parameters; `Decodable` — the values that are read back.
* `convert_branches` — what a branch of a trie converts to.
* `makes` — the trie of a flattened value converts to the value, by induction on the value.
* `query_to_json_inverts` — the parameters of a value are read back in every order.
-/

import CloudTwin.External
import CloudTwin.Lib.Utf8
import CloudTwin.Lib.Trie

namespace CloudTwin.Proto

open Lib.Text Lib.Trie

/-! ### The code -/

/-- What is left of a parameter's name behind the prefix and a dot. -/
def restOf (start name : String) : Option String :=
  if start = "" then some name
  else if startsWith name start then
    match name.toList.drop start.toList.length with
    | '.' :: rest => some (String.ofList rest)
    | _ => none
  else none

/-- What a map becomes, its children already converted. -/
def fromMap (children : List (String × Json)) : Json :=
  if !children.isEmpty && children.all fun child => (parseU64 child.1).isSome then
    let items := children.map fun child => ((parseU64 child.1).getD 0, child.2)
    .arr ((items.insertionSort fun first second => first.1 ≤ second.1).map Prod.snd)
  else
    match children with
    | [(key, inner)] => if key = "member" ∨ key = "entry" then inner else .obj children
    | _ => .obj children

mutual

def convert : Node String String → Json
  | .leaf text => .str text
  | .map children => fromMap (convertAll children)

def convertAll : List (String × Node String String) → List (String × Json)
  | [] => []
  | (key, node) :: rest => (key, convert node) :: convertAll rest

end

/-- `query_to_json`: `params` in the order in which the map is iterated. -/
def queryToJson (params : List (String × String)) (start : String) : Json :=
  let root := params.foldl (fun root param =>
    match restOf start param.1 with
    | some rest => insertPath root (split '.' rest) param.2
    | none => root) []
  convert (.map root)

/-! ### Values as parameters -/

/-- **Values that the flat form can carry.** A `Vec` holds fewer than `2 ^ 63` items. -/
inductive Decodable : Json → Prop where
  | str (text : String) : Decodable (.str text)
  | arr (items : List Json) (filled : items ≠ []) (held : items.length < 2 ^ 63)
      (all : ∀ item ∈ items, Decodable item) : Decodable (.arr items)
  | obj (members : List (String × Json)) (filled : members ≠ []) (order : InKeyOrder members)
      (keys : ∀ member ∈ members, member.1 ≠ "" ∧ '.' ∉ member.1.toList)
      (numbers : ¬∀ member ∈ members, (parseU64 member.1).isSome)
      (apart : ∀ value, members ≠ [("member", value)] ∧ members ≠ [("entry", value)])
      (all : ∀ member ∈ members, Decodable member.2) : Decodable (.obj members)

/-- The word behind which a list at a path is numbered. -/
def listWord (entries : List String → Bool) (path : List String) : String :=
  if entries path then "entry" else "member"

mutual

/-- The texts of a value and the paths of keys to them. `entries` are the paths at which a list is
written with `entry`. -/
def flatten (entries : List String → Bool) (path : List String) : Json → List (List String × String)
  | .str text => [([], text)]
  | .arr items =>
    branches [(listWord entries path,
      branches (flattenItems entries (path ++ [listWord entries path]) 1 items))]
  | .obj members => branches (flattenMembers entries path members)
  | _ => []

def flattenItems (entries : List String → Bool) (path : List String) (number : Nat) :
    List Json → List (String × List (List String × String))
  | [] => []
  | item :: rest =>
    (toString number, flatten entries (path ++ [toString number]) item) ::
      flattenItems entries path (number + 1) rest

def flattenMembers (entries : List String → Bool) (path : List String) :
    List (String × Json) → List (String × List (List String × String))
  | [] => []
  | (key, value) :: rest =>
    (key, flatten entries (path ++ [key]) value) :: flattenMembers entries path rest

end

/-- Keys with dots between them. -/
def joinDots : List String → String
  | [] => ""
  | [key] => key
  | key :: next :: rest => key ++ "." ++ joinDots (next :: rest)

/-- The parameter of a text: the prefix, when there is one, and the path behind it. -/
def paramOf (start : String) (entry : List String × String) : String × String :=
  (if start = "" then joinDots entry.1 else start ++ "." ++ joinDots entry.1, entry.2)

/-! ### Reading names -/

theorem splitGo_joinDots {path : List String} (filled : path ≠ [])
    (plain : ∀ key ∈ path, '.' ∉ key.toList) :
    splitGo '.' [] (joinDots path).toList = path.map String.toList := by
  induction path with
  | nil => exact absurd rfl filled
  | cons key rest ih =>
    have absent := plain key List.mem_cons_self
    cases rest with
    | nil => exact splitGo_last '.' key.toList absent []
    | cons next rest =>
      have later := ih (List.cons_ne_nil _ _) fun other member => plain other (List.mem_cons_of_mem _ member)
      have text : (joinDots (key :: next :: rest)).toList =
          key.toList ++ '.' :: (joinDots (next :: rest)).toList := by
        show (key ++ "." ++ joinDots (next :: rest)).toList = _
        rw [String.toList_append, String.toList_append, List.append_assoc]
        rfl
      rw [text, splitGo_append '.' key.toList absent, later]
      rfl

theorem split_joinDots {path : List String} (filled : path ≠ [])
    (plain : ∀ key ∈ path, '.' ∉ key.toList) : split '.' (joinDots path) = path := by
  unfold split
  rw [splitGo_joinDots filled plain, List.map_map]
  calc path.map (String.ofList ∘ String.toList) = path.map id :=
        List.map_congr_left fun key _ => String.ofList_toList
    _ = path := List.map_id path

theorem restOf_paramOf (start : String) (entry : List String × String) :
    restOf start (paramOf start entry).1 = some (joinDots entry.1) := by
  unfold restOf paramOf
  by_cases empty : start = ""
  · rw [if_pos empty, if_pos empty]
  · rw [if_neg empty, if_neg empty]
    have text : (start ++ "." ++ joinDots entry.1).toList =
        start.toList ++ '.' :: (joinDots entry.1).toList := by
      rw [String.toList_append, String.toList_append, List.append_assoc]
      rfl
    have starts : startsWith (start ++ "." ++ joinDots entry.1) start = true := by
      unfold startsWith
      rw [text, List.isPrefixOf_iff_prefix]
      exact List.prefix_append _ _
    rw [if_pos starts, text, List.drop_left]
    exact congrArg some String.ofList_toList

/-! ### Maps -/

theorem convertAll_eq (children : List (String × Node String String)) :
    convertAll children = children.map fun child => (child.1, convert child.2) := by
  induction children with
  | nil => rfl
  | cons child rest ih =>
    rw [List.map_cons, ← ih]
    rfl

/-- The items of a list under their numbers. -/
def numbered (number : Nat) : List Json → List (String × Json)
  | [] => []
  | item :: rest => (toString number, item) :: numbered (number + 1) rest

theorem flattenMembers_eq (entries : List String → Bool) (path : List String)
    (members : List (String × Json)) : flattenMembers entries path members =
      members.map fun member => (member.1, flatten entries (path ++ [member.1]) member.2) := by
  induction members with
  | nil => rfl
  | cons member rest ih =>
    rw [List.map_cons, ← ih]
    rfl

theorem flattenItems_eq (entries : List String → Bool) (path : List String) (items : List Json) :
    ∀ number, flattenItems entries path number items = (numbered number items).map fun member =>
      (member.1, flatten entries (path ++ [member.1]) member.2) := by
  induction items with
  | nil => exact fun _ => rfl
  | cons item rest ih =>
    intro number
    unfold numbered
    rw [List.map_cons, ← ih]
    rfl

/-- Items and numbers in their order. -/
def counted (number : Nat) : List Json → List (Nat × Json)
  | [] => []
  | item :: rest => (number, item) :: counted (number + 1) rest

theorem counted_least {items : List Json} : ∀ {number : Nat} {entry : Nat × Json},
    entry ∈ counted number items → number ≤ entry.1 ∧ entry.1 < number + items.length := by
  induction items with
  | nil => exact fun member => absurd member List.not_mem_nil
  | cons item rest ih =>
    intro number entry member
    rw [List.length_cons]
    rcases List.mem_cons.mp member with rfl | later
    · exact ⟨le_refl _, by omega⟩
    · have bounds := ih later
      omega

theorem counted_sorted (items : List Json) : ∀ number,
    (counted number items).Pairwise fun first second => first.1 < second.1 := by
  induction items with
  | nil => exact fun _ => List.Pairwise.nil
  | cons item rest ih =>
    exact fun number => List.pairwise_cons.mpr ⟨fun _ member => (counted_least member).1, ih _⟩

theorem counted_snd (items : List Json) : ∀ number, (counted number items).map Prod.snd = items := by
  induction items with
  | nil => exact fun _ => rfl
  | cons item rest ih => exact fun number => congrArg (item :: ·) (ih _)

theorem numbered_eq (items : List Json) : ∀ number, numbered number items =
    (counted number items).map fun entry => (toString entry.1, entry.2) := by
  induction items with
  | nil => exact fun _ => rfl
  | cons item rest ih => exact fun number => congrArg ((toString number, item) :: ·) (ih _)

theorem numbered_distinct {items : List Json} {number : Nat} (small : number + items.length ≤ 2 ^ 64) :
    ((numbered number items).map Prod.fst).Nodup := by
  rw [numbered_eq, List.map_map, List.Nodup, List.pairwise_map]
  refine (counted_sorted items number).imp_of_mem fun {first second} one two less same => ?_
  have values := congrArg parseU64 same
  have first' := (counted_least one).2
  have second' := (counted_least two).2
  simp only [Function.comp_apply] at values
  rw [parseU64_toString (by omega), parseU64_toString (by omega)] at values
  exact absurd (Option.some.inj values) (ne_of_lt less)

theorem fromMap_numbered {children : List (String × Json)} {items : List Json} (filled : items ≠ [])
    (held : items.length < 2 ^ 63) (perm : children.Perm (numbered 1 items)) :
    fromMap children = .arr items := by
  have values : ∀ entry ∈ counted 1 items, parseU64 (toString entry.1) = some entry.1 :=
    fun entry member => parseU64_toString (by have := (counted_least member).2; omega)
  have numeric : (!children.isEmpty && children.all fun child => (parseU64 child.1).isSome) = true := by
    have some' : children ≠ [] := by
      rintro rfl
      have empty := perm.symm.eq_nil
      cases items with
      | nil => exact filled rfl
      | cons item rest => cases empty
    rw [Bool.and_eq_true, Bool.not_eq_true', List.isEmpty_eq_false_iff, List.all_eq_true]
    refine ⟨some', fun child member => ?_⟩
    have among := perm.mem_iff.mp member
    rw [numbered_eq] at among
    obtain ⟨entry, inside, rfl⟩ := List.mem_map.mp among
    rw [values entry inside]
    rfl
  have read : ((numbered 1 items).map fun child => ((parseU64 child.1).getD 0, child.2)) =
      counted 1 items := by
    rw [numbered_eq, List.map_map]
    calc (counted 1 items).map _ = (counted 1 items).map id :=
          List.map_congr_left fun entry member => by
            rw [Function.comp_apply, values entry member]
            rfl
      _ = counted 1 items := List.map_id _
  unfold fromMap
  rw [if_pos numeric]
  have reordered := perm.map fun child : String × Json => ((parseU64 child.1).getD 0, child.2)
  rw [read] at reordered
  -- The numbers differ, so there is one order of them.
  have sorted : (children.map fun child => ((parseU64 child.1).getD 0, child.2)).insertionSort
      (fun first second => first.1 ≤ second.1) = counted 1 items := by
    have order := counted_sorted items 1
    refine @List.Perm.eq_of_pairwise _ (fun first second => first.1 ≤ second.1) _ _ ?_
      (List.pairwise_insertionSort _ _) (order.imp le_of_lt)
      ((List.perm_insertionSort _ _).trans reordered)
    intro first second one two up down
    have one' := reordered.mem_iff.mp ((List.perm_insertionSort _ _).mem_iff.mp one)
    have distinct : ((counted 1 items).map Prod.fst).Nodup :=
      List.pairwise_map.mpr (order.imp ne_of_lt)
    exact List.inj_on_of_nodup_map distinct one' two (le_antisymm up down)
  show Json.arr _ = _
  rw [sorted, counted_snd]

theorem fromMap_object {members : List (String × Json)}
    (numbers : ¬∀ member ∈ members, (parseU64 member.1).isSome)
    (apart : ∀ value, members ≠ [("member", value)] ∧ members ≠ [("entry", value)]) :
    fromMap members = .obj members := by
  have words : ¬(!members.isEmpty && members.all fun child => (parseU64 child.1).isSome) = true := by
    rw [Bool.and_eq_true, List.all_eq_true]
    exact fun numeric => numbers numeric.2
  unfold fromMap
  rw [if_neg words]
  split
  · rename_i key inner
    exact if_neg fun word => word.elim (fun same => (apart inner).1 (same ▸ rfl))
      fun same => (apart inner).2 (same ▸ rfl)
  · rfl

theorem fromMap_list (entries : List String → Bool) (path : List String) (value : Json) :
    fromMap [(listWord entries path, value)] = value := by
  have word : listWord entries path = "member" ∨ listWord entries path = "entry" := by
    unfold listWord
    split
    · exact .inr rfl
    · exact .inl rfl
  have plain : parseU64 (listWord entries path) = none := by
    rcases word with same | same
    · rw [same]
      decide
    · rw [same]
      decide
  unfold fromMap
  rw [if_neg (by rw [List.all_cons, plain]; exact Bool.false_ne_true)]
  exact if_pos word

/-! ### The trie of a value -/

/-- Entries that are, in whatever order they come, the trie of a value. -/
def Makes (flat : List (List String × String)) (value : Json) : Prop :=
  ∀ entries : List (List String × String), entries.Perm flat →
    ∃ node, nodeOf none entries = some node ∧ convert node = value

theorem Makes.filled {flat : List (List String × String)} {value : Json} (makes : Makes flat value) :
    flat ≠ [] := by
  rintro rfl
  obtain ⟨node, made, -⟩ := makes [] (List.Perm.refl _)
  cases made

/-- **What a branch converts to.** The children are the members, in some order. -/
theorem convert_branches {members : List (String × Json)}
    {flat : String × Json → List (List String × String)} (distinct : (members.map Prod.fst).Nodup)
    (makes : ∀ member ∈ members, Makes (flat member) member.2) {entries : List (List String × String)}
    (perm : entries.Perm (branches (members.map fun member => (member.1, flat member)))) :
    InKeyOrder (convertAll (build entries)) ∧ (convertAll (build entries)).Perm members := by
  have keys : ((members.map fun member => (member.1, flat member)).map Prod.fst).Nodup := by
    rw [List.map_map]
    exact distinct
  have order : InKeyOrder (convertAll (build entries)) := by
    rw [convertAll_eq]
    exact List.pairwise_map.mpr (build_order entries)
  have here : ∀ member ∈ members, ∃ node,
      (build entries).lookup member.1 = some node ∧ convert node = member.2 := by
    intro member inside
    have part := under_branches keys
      (List.mem_map_of_mem (f := fun member => (member.1, flat member)) inside)
    rw [lookup_build]
    exact makes member inside _ ((under_perm perm member.1).trans (List.Perm.of_eq part))
  refine ⟨order, (List.perm_ext_iff_of_nodup
    (order.imp fun less same => absurd (same ▸ less) (lt_irrefl _)) distinct.of_map).mpr fun child => ?_⟩
  rw [convertAll_eq, List.mem_map]
  constructor
  · rintro ⟨⟨key, node⟩, inside, rfl⟩
    have found := lookup_of_mem (build_order entries) inside
    by_cases known : key ∈ members.map Prod.fst
    · obtain ⟨member, among, rfl⟩ := List.mem_map.mp known
      obtain ⟨other, stored, converted⟩ := here member among
      rw [found] at stored
      rw [Option.some.inj stored, converted]
      exact among
    · have absent : key ∉ (members.map fun member => (member.1, flat member)).map Prod.fst := by
        rw [List.map_map]
        exact known
      have none' := under_perm perm key
      rw [under_absent absent] at none'
      rw [lookup_build, none'.eq_nil] at found
      cases found
  · intro inside
    obtain ⟨node, stored, converted⟩ := here child inside
    exact ⟨(child.1, node), mem_of_lookup stored, Prod.ext rfl converted⟩

/-- A branch of a trie makes what its children, put in order, are read as. -/
theorem branches_make (members : List (String × Json))
    (flat : String × Json → List (List String × String)) (value : Json) (filled : members ≠ [])
    (distinct : (members.map Prod.fst).Nodup) (makes : ∀ member ∈ members, Makes (flat member) member.2)
    (reads : ∀ children, InKeyOrder children → children.Perm members → fromMap children = value) :
    Makes (branches (members.map fun member => (member.1, flat member))) value ∧
      ∀ entries : List (List String × String),
        entries.Perm (branches (members.map fun member => (member.1, flat member))) →
          convert (.map (build entries)) = value := by
  have converts : ∀ entries : List (List String × String),
      entries.Perm (branches (members.map fun member => (member.1, flat member))) →
        convert (.map (build entries)) = value := by
    intro entries perm
    obtain ⟨order, children⟩ := convert_branches distinct makes perm
    exact reads _ order children
  have some' : branches (members.map fun member => (member.1, flat member)) ≠ [] := by
    obtain ⟨member, inside⟩ := List.exists_mem_of_ne_nil members filled
    obtain ⟨entry, among⟩ := List.exists_mem_of_ne_nil _ (makes member inside).filled
    exact List.ne_nil_of_mem (List.mem_flatMap.mpr
      ⟨_, List.mem_map_of_mem inside, List.mem_map_of_mem among⟩)
  refine ⟨fun entries perm => ⟨.map (build entries), ?_, converts entries perm⟩, converts⟩
  exact nodeOf_map (fun empty => some' (empty ▸ perm).symm.eq_nil)
    fun entry member => paths_branches entry (perm.mem_iff.mp member)

/-- **The trie of a value.** By induction on the value: a list is two branches, one for its word and
one for its numbers. -/
theorem makes {value : Json} (decodable : Decodable value) (entries : List String → Bool) :
    ∀ path, Makes (flatten entries path value) value ∧ ((∀ text, value ≠ .str text) →
      ∀ stored : List (List String × String), stored.Perm (flatten entries path value) →
        convert (.map (build stored)) = value) := by
  induction decodable with
  | str text =>
    refine fun path => ⟨fun stored perm => ?_, fun branch => absurd rfl (branch text)⟩
    rw [List.perm_singleton.mp perm]
    exact ⟨.leaf text, rfl, rfl⟩
  | arr items filled held all ih =>
    intro path
    have inner : Makes (branches (flattenItems entries (path ++ [listWord entries path]) 1 items))
        (.arr items) := by
      rw [flattenItems_eq]
      refine (branches_make _ _ (.arr items) ?_ (numbered_distinct (by omega)) ?_
        fun children _ perm => fromMap_numbered filled held perm).1
      · cases items with
        | nil => exact absurd rfl filled
        | cons item rest => exact List.cons_ne_nil _ _
      · intro member inside
        rw [numbered_eq] at inside
        obtain ⟨entry, among, rfl⟩ := List.mem_map.mp inside
        have item : entry.2 ∈ items := counted_snd items 1 ▸ List.mem_map_of_mem among
        exact (ih entry.2 item _).1
    have outer := branches_make [(listWord entries path, .arr items)]
      (fun _ => branches (flattenItems entries (path ++ [listWord entries path]) 1 items)) (.arr items)
      (List.cons_ne_nil _ _) (List.nodup_singleton _)
      (fun member inside => List.mem_singleton.mp inside ▸ inner)
      fun children _ perm => List.perm_singleton.mp perm ▸ fromMap_list entries path (.arr items)
    exact ⟨outer.1, fun _ => outer.2⟩
  | obj members filled order keys numbers apart all ih =>
    intro path
    have here := branches_make members
      (fun member => flatten entries (path ++ [member.1]) member.2) (.obj members) filled
      (List.pairwise_map.mpr (order.imp ne_of_lt)) (fun member inside => (ih member inside _).1)
      fun children sorted perm => by
        have same : children = members := perm.eq_of_pairwise
          (fun _ _ _ _ less more => absurd (less.trans more) (lt_irrefl _)) sorted order
        rw [same]
        exact fromMap_object numbers apart
    rw [← flattenMembers_eq] at here
    exact ⟨here.1, fun _ => here.2⟩

/-! ### The parameters -/

theorem plain_toString (number : Nat) : '.' ∉ (toString number).toList := by
  rw [Nat.toString_eq_ofList_toDigits, String.toList_ofList]
  intro member
  exact absurd (Nat.isDigit_of_mem_toDigits (by decide) (by decide) member) (by decide)

/-- No key of a flattened value has a dot. -/
theorem plain_flatten {value : Json} (decodable : Decodable value) (entries : List String → Bool) :
    ∀ path, ∀ entry ∈ flatten entries path value, ∀ key ∈ entry.1, '.' ∉ key.toList := by
  -- A branch keeps this, when its own key has none.
  have branch : ∀ (members : List (String × Json)) (flat : String × Json → List (List String × String)),
      (∀ member ∈ members, '.' ∉ member.1.toList ∧
        ∀ entry ∈ flat member, ∀ key ∈ entry.1, '.' ∉ key.toList) →
      ∀ entry ∈ branches (members.map fun member => (member.1, flat member)),
        ∀ key ∈ entry.1, '.' ∉ key.toList := by
    intro members flat plain entry inside key among
    obtain ⟨part, isPart, left⟩ := List.mem_flatMap.mp inside
    obtain ⟨member, isMember, rfl⟩ := List.mem_map.mp isPart
    obtain ⟨rest, isRest, rfl⟩ := List.mem_map.mp left
    rcases List.mem_cons.mp among with rfl | later
    · exact (plain member isMember).1
    · exact (plain member isMember).2 rest isRest key later
  induction decodable with
  | str text =>
    intro path entry inside key among
    rw [List.mem_singleton.mp inside] at among
    exact absurd among List.not_mem_nil
  | arr items filled held all ih =>
    intro path
    have word : '.' ∉ (listWord entries path).toList := by
      unfold listWord
      split <;> decide
    refine branch [(listWord entries path, .null)] (fun _ => branches
      (flattenItems entries (path ++ [listWord entries path]) 1 items)) fun member inside => ?_
    rw [List.mem_singleton.mp inside, flattenItems_eq]
    refine ⟨word, branch _ _ fun member inside => ?_⟩
    rw [numbered_eq] at inside
    obtain ⟨entry, among, rfl⟩ := List.mem_map.mp inside
    have item : entry.2 ∈ items := counted_snd items 1 ▸ List.mem_map_of_mem among
    exact ⟨plain_toString entry.1, ih entry.2 item _⟩
  | obj members filled order keys numbers apart all ih =>
    intro path
    show ∀ entry ∈ branches (flattenMembers entries path members), _
    rw [flattenMembers_eq]
    exact branch _ _ fun member inside => ⟨(keys member inside).2, ih member inside _⟩

/-- The entry that a parameter stores, when it stands under the prefix. -/
def storedOf (start : String) (param : String × String) : Option (List String × String) :=
  (restOf start param.1).map fun rest => (split '.' rest, param.2)

theorem queryToJson_eq (params : List (String × String)) (start : String) :
    queryToJson params start = convert (.map (build (params.filterMap (storedOf start)))) := by
  unfold queryToJson build
  rw [List.foldl_filterMap]
  refine congrArg (fun store => convert (.map (params.foldl store [])))
    (funext fun root => funext fun param => ?_)
  unfold storedOf
  cases restOf start param.1 with
  | none => rfl
  | some rest => rfl

theorem stored_flatten {value : Json} (decodable : Decodable value) (branch : ∀ text, value ≠ .str text)
    (entries : List String → Bool) (start : String) :
    ((flatten entries [] value).map (paramOf start)).filterMap (storedOf start) =
      flatten entries [] value := by
  have filled : ∀ entry ∈ flatten entries [] value, entry.1 ≠ [] := by
    cases decodable with
    | str text => exact absurd rfl (branch text)
    | arr items => exact paths_branches
    | obj members => exact paths_branches
  rw [List.filterMap_map]
  calc (flatten entries [] value).filterMap (storedOf start ∘ paramOf start)
      = (flatten entries [] value).filterMap some := by
        refine List.filterMap_congr fun entry member => ?_
        rw [Function.comp_apply, storedOf, restOf_paramOf, Option.map_some,
          split_joinDots (filled entry member) (plain_flatten decodable entries [] entry member)]
        rfl
    _ = flatten entries [] value := List.filterMap_some

/-- **Query parameters are read back as the value they were written from.** The parameters of the value
and any others outside the prefix come in whatever order the map has. -/
theorem query_to_json_inverts {value : Json} (decodable : Decodable value)
    (branch : ∀ text, value ≠ .str text) (entries : List String → Bool) (start : String)
    {others params : List (String × String)} (outside : ∀ param ∈ others, restOf start param.1 = none)
    (perm : params.Perm ((flatten entries [] value).map (paramOf start) ++ others)) :
    queryToJson params start = value := by
  have ignored : others.filterMap (storedOf start) = [] := by
    refine List.filterMap_eq_nil_iff.mpr fun param member => ?_
    unfold storedOf
    rw [outside param member]
    rfl
  have stored := perm.filterMap (storedOf start)
  rw [List.filterMap_append, ignored, List.append_nil, stored_flatten decodable branch] at stored
  rw [queryToJson_eq]
  exact (makes decodable entries []).2 branch _ stored

/-- A list of an object and a text under a prefix, next to another parameter. -/
theorem query_to_json_inverts_sample :
    queryToJson [("S.Name", "s"), ("R.member.2", "b"), ("R.member.1.Key", "k")] "R" =
      .arr [.obj [("Key", .str "k")], .str "b"] :=
  query_to_json_inverts
    (.arr _ (List.cons_ne_nil _ _) (by decide) (by
      intro item member
      rcases List.mem_cons.mp member with rfl | later
      · refine .obj _ (List.cons_ne_nil _ _) (List.pairwise_singleton _ _) ?_ ?_ ?_ ?_
        · intro member inside
          rw [List.mem_singleton.mp inside]
          decide
        · exact fun numbers => absurd (numbers _ List.mem_cons_self) (by decide)
        · exact fun value => ⟨fun same => by injection same with same; injection same; contradiction,
            fun same => by injection same with same; injection same; contradiction⟩
        · intro member inside
          rw [List.mem_singleton.mp inside]
          exact .str "k"
      · rw [List.mem_singleton.mp later]
        exact .str "b"))
    (fun text same => by cases same) (fun _ => false) "R"
    (show ∀ param ∈ [("S.Name", "s")], restOf "R" param.1 = none from fun param member => by
      rw [List.mem_singleton.mp member]
      decide)
    (by
      have flat : ((flatten (fun _ => false) [] (.arr [.obj [("Key", .str "k")], .str "b"])).map
          (paramOf "R") ++ [("S.Name", "s")]) =
            [("R.member.1.Key", "k"), ("R.member.2", "b"), ("S.Name", "s")] := by rfl
      rw [flat]
      decide)

end CloudTwin.Proto
