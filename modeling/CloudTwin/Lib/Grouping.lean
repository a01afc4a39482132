/-
**Names that are listed up to a delimiter.**

Names with a prefix are listed; those with the delimiter in what follows are listed by the text up to
its first occurrence, once for all of them. In the order of the names the names of a group stand
together, so that a set of the groups that were met and a look at the last entry do the same.

* `Entry`, `entryOf`, `IsListing` — what a name is listed as, and what a listing is.
* `entryOf_mono` — entries come in the order of the names.
* `groupSeen`, `groupLast` — the two loops; `groupLast_eq`, they agree.
* `listing_groupSeen`, `IsListing.unique` — they give the listing, and there is only one.
* `rowsOf` — the rows of a table that SQLite finds by a prefix, by name.
* `ListsInPages` — what a service does that lists names in pages; `Findable`, when a search by prefix
  lets it.
-/

import CloudTwin.Lib.Paging
import CloudTwin.Lib.Sqlite
import CloudTwin.Lib.Substring
import CloudTwin.Lib.Text

namespace CloudTwin.Lib

open Text

/-- A name, or the text up to the delimiter of a group of names. -/
inductive Entry where
  | item (name : String)
  | common (text : String)
  deriving DecidableEq

def Entry.key : Entry → String
  | .item name => name
  | .common text => text

/-- What follows the prefix. -/
def remainder (start name : String) : List Char :=
  name.toList.drop start.toList.length

/-- The prefix and what follows up to the first delimiter. -/
def commonText (start delimiter name : String) : Option String :=
  if delimiter.isEmpty then none
  else (findSub delimiter.toList (remainder start name)).map fun index =>
    start ++ String.ofList ((remainder start name).take (index + delimiter.toList.length))

def entryOf (start delimiter name : String) : Entry :=
  match commonText start delimiter name with
  | some text => .common text
  | none => .item name

/-- **The listing of names**: in the order of its keys, each name with the prefix that has no delimiter
in what follows, and each text of a group, once. -/
structure IsListing (names : String → Prop) (start delimiter : String) (entries : List Entry) :
    Prop where
  order : InOrder Entry.key entries
  mem : ∀ entry, entry ∈ entries ↔
    ∃ name, names name ∧ startsWith name start = true ∧ entryOf start delimiter name = entry

theorem IsListing.unique {names : String → Prop} {start delimiter : String} {first second : List Entry}
    (listing : IsListing names start delimiter first)
    (listing' : IsListing names start delimiter second) : first = second :=
  listing.order.unique listing'.order fun entry => (listing.mem entry).trans (listing'.mem entry).symm

theorem startsWith_prefix {text start : String} :
    startsWith text start = true ↔ start.toList <+: text.toList :=
  List.isPrefixOf_iff_prefix

theorem entryOf_common {start delimiter name text : String} :
    entryOf start delimiter name = .common text ↔ commonText start delimiter name = some text := by
  unfold entryOf
  cases commonText start delimiter name with
  | none => exact ⟨nofun, nofun⟩
  | some other => rw [Entry.common.injEq, Option.some.injEq]

theorem item_of_entryOf {start delimiter name other : String}
    (listed : entryOf start delimiter name = .item other) : name = other := by
  unfold entryOf at listed
  split at listed
  · cases listed
  · exact Entry.item.inj listed

/-! ### The order of the entries -/

/-- A group has all names that start with its text. -/
theorem commonText_some {start delimiter name text : String} (starts : startsWith name start = true)
    (grouped : commonText start delimiter name = some text) :
    text.toList <+: name.toList ∧ ∀ other : String, text.toList <+: other.toList →
      commonText start delimiter other = some text := by
  obtain ⟨rest, whole⟩ := startsWith_prefix.mp starts
  have left : remainder start name = rest := by rw [remainder, ← whole, List.drop_left]
  unfold commonText at grouped ⊢
  rw [left] at grouped
  split at grouped
  · cases grouped
  · rename_i given
    obtain ⟨index, found, rfl⟩ := Option.map_eq_some_iff.mp grouped
    have long := findSub_length found
    rw [String.toList_append, String.toList_ofList]
    refine ⟨?_, fun other startsToo => ?_⟩
    · rw [← whole]
      exact List.prefix_append_right_inj _ |>.mpr (List.take_prefix _ _)
    · obtain ⟨tail, same⟩ := startsToo
      have after : remainder start other = rest.take (index + delimiter.toList.length) ++ tail := by
        rw [remainder, ← same, List.append_assoc, List.drop_left]
      rw [if_neg given, after, findSub_stable found (List.prefix_append _ _), Option.map_some,
        List.take_left' (by rw [List.length_take]; omega)]

theorem key_le {start delimiter name : String} (starts : startsWith name start = true) :
    (entryOf start delimiter name).key ≤ name := by
  unfold entryOf
  split
  · rename_i text grouped
    exact String.le_iff_toList_le.mpr (prefix_le (commonText_some starts grouped).1)
  · exact le_refl _

/-- The names of a group stand together. -/
theorem commonText_between {start delimiter middle last text : String}
    (starts : startsWith last start = true) (grouped : commonText start delimiter last = some text)
    (above : text ≤ middle) (below : middle ≤ last) :
    commonText start delimiter middle = some text := by
  obtain ⟨inLast, groups⟩ := commonText_some starts grouped
  exact groups middle (prefix_between inLast (String.le_iff_toList_le.mp above)
    (String.le_iff_toList_le.mp below))

/-- **Of two names in order, both are of one group, or their entries are in order.** -/
theorem entryOf_mono {start delimiter first second : String} (starts : startsWith first start = true)
    (startsToo : startsWith second start = true) (less : first < second) :
    (∃ text, entryOf start delimiter first = .common text ∧
        entryOf start delimiter second = .common text) ∨
      (entryOf start delimiter first).key < (entryOf start delimiter second).key := by
  cases grouped : commonText start delimiter second with
  | none =>
    have item : entryOf start delimiter second = .item second := by rw [entryOf, grouped]
    rw [item]
    exact Or.inr (lt_of_le_of_lt (key_le starts) less)
  | some text =>
    have second' := entryOf_common.mpr grouped
    by_cases within : text ≤ first
    · have same := commonText_between startsToo grouped within (le_of_lt less)
      exact Or.inl ⟨text, entryOf_common.mpr same, second'⟩
    · refine Or.inr (lt_of_le_of_lt (key_le starts) ?_)
      rw [second']
      exact not_le.mp within

/-! ### The two loops -/

section Loops

variable (start delimiter : String)

/-- A group is listed unless it was met: `seen` holds the texts of the groups. -/
def groupSeen : List String → List String → List Entry
  | _, [] => []
  | seen, name :: names =>
    match commonText start delimiter name with
    | some text =>
      if text ∈ seen then groupSeen seen names
      else .common text :: groupSeen (text :: seen) names
    | none => .item name :: groupSeen seen names

/-- A group is listed unless it is the last entry. -/
def groupLast : Option Entry → List String → List Entry
  | _, [] => []
  | last, name :: names =>
    match commonText start delimiter name with
    | some text =>
      if last = some (.common text) then groupLast last names
      else .common text :: groupLast (some (.common text)) names
    | none => .item name :: groupLast (some (.item name)) names

variable {start delimiter}

theorem mem_groupSeen {names : List String} {entry : Entry} :
    ∀ {seen : List String}, entry ∈ groupSeen start delimiter seen names ↔
      (∃ name ∈ names, entryOf start delimiter name = entry) ∧
        ∀ text, entry = .common text → text ∉ seen := by
  induction names with
  | nil => simp [groupSeen]
  | cons name names ih =>
    intro seen
    unfold groupSeen
    rw [List.exists_mem_cons_iff]
    cases grouped : commonText start delimiter name with
    | none =>
      have here : entryOf start delimiter name = .item name := by rw [entryOf, grouped]
      rw [List.mem_cons, ih, here]
      constructor
      · rintro (rfl | ⟨later, fresh⟩)
        · exact ⟨Or.inl rfl, nofun⟩
        · exact ⟨Or.inr later, fresh⟩
      · rintro ⟨rfl | later, fresh⟩
        · exact Or.inl rfl
        · exact Or.inr ⟨later, fresh⟩
    | some text =>
      have here := entryOf_common.mpr grouped
      rw [here]
      dsimp only
      by_cases met : text ∈ seen
      · rw [if_pos met, ih]
        constructor
        · rintro ⟨later, fresh⟩
          exact ⟨Or.inr later, fresh⟩
        · rintro ⟨rfl | later, fresh⟩
          · exact absurd met (fresh text rfl)
          · exact ⟨later, fresh⟩
      · rw [if_neg met, List.mem_cons, ih]
        constructor
        · rintro (rfl | ⟨later, fresh⟩)
          · exact ⟨Or.inl rfl, fun other same => by cases same; exact met⟩
          · exact ⟨Or.inr later, fun other same member =>
              fresh other same (List.mem_cons_of_mem _ member)⟩
        · rintro ⟨rfl | later, fresh⟩
          · exact Or.inl rfl
          · by_cases same : entry = .common text
            · exact Or.inl same
            · refine Or.inr ⟨later, fun other is member => ?_⟩
              rcases List.mem_cons.mp member with rfl | member
              · exact same is
              · exact fresh other is member

/-- The names that are listed: in order, and all with the prefix. -/
structure Queried (start : String) (names : List String) : Prop where
  order : names.Pairwise fun first second => first < second
  starts : ∀ name ∈ names, startsWith name start = true

theorem Queried.tail {name : String} {names : List String} (queried : Queried start (name :: names)) :
    Queried start names :=
  ⟨queried.order.of_cons, fun other member => queried.starts other (List.mem_cons_of_mem _ member)⟩

theorem order_groupSeen {names : List String} (queried : Queried start names) :
    ∀ seen, InOrder Entry.key (groupSeen start delimiter seen names) := by
  induction names with
  | nil => exact fun _ => List.Pairwise.nil
  | cons name names ih =>
    intro seen
    -- The entry of a later name that is not of this group comes later.
    have later : ∀ {seen : List String} {entry : Entry},
        entry ∈ groupSeen start delimiter seen names → entryOf start delimiter name ≠ entry →
          (entryOf start delimiter name).key < entry.key := by
      intro seen entry member other
      obtain ⟨⟨second, memberSecond, rfl⟩, _⟩ := mem_groupSeen.mp member
      refine (entryOf_mono (queried.starts name List.mem_cons_self)
        (queried.starts second (List.mem_cons_of_mem _ memberSecond))
        (List.rel_of_pairwise_cons queried.order memberSecond)).resolve_left ?_
      rintro ⟨text, same, same'⟩
      exact other (same.trans same'.symm)
    unfold groupSeen
    cases grouped : commonText start delimiter name with
    | none =>
      have here : entryOf start delimiter name = .item name := by rw [entryOf, grouped]
      refine List.pairwise_cons.mpr ⟨fun entry member => ?_, ih queried.tail _⟩
      rw [← here]
      refine later member fun same => ?_
      obtain ⟨⟨second, memberSecond, listed⟩, _⟩ := mem_groupSeen.mp member
      have less := List.rel_of_pairwise_cons queried.order memberSecond
      rw [← same, here] at listed
      rw [item_of_entryOf listed] at less
      exact lt_irrefl _ less
    | some text =>
      have here := entryOf_common.mpr grouped
      show InOrder Entry.key (if text ∈ seen then _ else _)
      split
      · exact ih queried.tail _
      · refine List.pairwise_cons.mpr ⟨fun entry member => ?_, ih queried.tail _⟩
        rw [← here]
        refine later member fun same => ?_
        rw [here] at same
        exact (mem_groupSeen.mp member).2 text same.symm List.mem_cons_self

/-- **The loop with the groups that were met gives the listing.** -/
theorem listing_groupSeen {names : List String} (queried : Queried start names) :
    IsListing (· ∈ names) start delimiter (groupSeen start delimiter [] names) where
  order := order_groupSeen queried []
  mem := fun entry => by
    rw [mem_groupSeen]
    constructor
    · rintro ⟨⟨name, member, same⟩, _⟩
      exact ⟨name, member, queried.starts name member, same⟩
    · rintro ⟨name, member, _, same⟩
      exact ⟨⟨name, member, same⟩, fun _ _ => List.not_mem_nil⟩

theorem met_append {before : List String} {name : String} {entry : Entry} :
    (∃ other ∈ before ++ [name], entryOf start delimiter other = entry) ↔
      (∃ other ∈ before, entryOf start delimiter other = entry) ∨
        entryOf start delimiter name = entry := by
  simp only [List.mem_append, List.mem_singleton, or_and_right, exists_or, exists_eq_left]

/-- The name before is of each group that was met and goes on. -/
theorem last_group {before names : List String} {name other text : String}
    (queried : Queried start (before ++ name :: names))
    (grouped : commonText start delimiter name = some text) (member : other ∈ before)
    (same : entryOf start delimiter other = .common text) :
    before.getLast?.map (entryOf start delimiter) = some (.common text) := by
  have nonempty : before ≠ [] := List.ne_nil_of_mem member
  have split := List.dropLast_append_getLast nonempty
  obtain ⟨inBefore, _, across⟩ := List.pairwise_append.mp queried.order
  have memberLast : before.getLast nonempty ∈ before := List.getLast_mem nonempty
  have le : other ≤ before.getLast nonempty := by
    rw [← split] at inBefore member
    rcases List.mem_append.mp member with early | last
    · exact le_of_lt ((List.pairwise_append.mp inBefore).2.2 _ early _ (List.mem_singleton_self _))
    · exact le_of_eq (List.mem_singleton.mp last)
  have less := across _ memberLast name List.mem_cons_self
  have within : text ≤ other := by
    have starts := queried.starts other (List.mem_append_left _ member)
    have bound : (entryOf start delimiter other).key ≤ other := key_le starts
    rw [same] at bound
    exact bound
  rw [List.getLast?_eq_some_getLast nonempty, Option.map_some]
  have starts := queried.starts name (List.mem_append_right _ List.mem_cons_self)
  rw [entryOf_common.mpr (commonText_between starts grouped (within.trans le) (le_of_lt less))]

/-- **The loop that looks at the last entry does the same**: the last entry is that of the name before,
and the names of a group stand together. -/
theorem groupLast_eq {names : List String} : ∀ {before : List String} {seen : List String},
    Queried start (before ++ names) →
    (∀ text, text ∈ seen ↔ ∃ name ∈ before, entryOf start delimiter name = .common text) →
    groupLast start delimiter (before.getLast?.map (entryOf start delimiter)) names =
      groupSeen start delimiter seen names := by
  induction names with
  | nil => exact fun _ _ => rfl
  | cons name names ih =>
    intro before seen queried met
    have next : Queried start ((before ++ [name]) ++ names) := by
      rw [List.append_assoc]
      exact queried
    have last : (before ++ [name]).getLast?.map (entryOf start delimiter) =
        some (entryOf start delimiter name) := by
      rw [List.getLast?_concat]
      rfl
    unfold groupLast groupSeen
    cases grouped : commonText start delimiter name with
    | none =>
      have here : entryOf start delimiter name = .item name := by rw [entryOf, grouped]
      dsimp only
      rw [← here, ← last]
      congr 1
      refine ih next fun text => ?_
      rw [met, met_append, here]
      exact (or_iff_left nofun).symm
    | some text =>
      have here := entryOf_common.mpr grouped
      dsimp only
      -- A group that was met is that of the name before.
      have same : before.getLast?.map (entryOf start delimiter) = some (.common text) ↔ text ∈ seen := by
        rw [met]
        constructor
        · intro known
          obtain ⟨other, isLast, same⟩ := Option.map_eq_some_iff.mp known
          exact ⟨other, List.mem_of_getLast? isLast, same⟩
        · rintro ⟨other, member, same⟩
          exact last_group queried grouped member same
      by_cases known : text ∈ seen
      · rw [if_pos (same.mpr known), if_pos known, same.mpr known, ← here, ← last]
        refine ih next fun other => ?_
        rw [met_append, ← met, here, Entry.common.injEq]
        exact ⟨Or.inl, fun either => either.elim id fun same => same ▸ known⟩
      · rw [if_neg fun wrong => known (same.mp wrong), if_neg known, ← here, ← last]
        congr 1
        refine ih next fun other => ?_
        rw [met_append, ← met, here, Entry.common.injEq, List.mem_cons, or_comm, eq_comm]

end Loops

/-! ### Tables -/

/-- Rows with different names: the name is the primary key. -/
structure NamedRows (ρ : Type) (name : ρ → String) where
  rows : List ρ
  distinct : (rows.map name).Nodup

section Rows

variable {ρ : Type} {name : ρ → String}

/-- `WHERE substr(name, 1, length(?)) = ? ORDER BY name`. -/
def rowsOf (name : ρ → String) (start : String) (rows : List ρ) : List ρ :=
  (rows.filter fun row => Sqlite.hasPrefix (name row) start).mergeSort fun first second =>
    decide (name first ≤ name second)

theorem mem_rowsOf {start : String} {rows : List ρ} {row : ρ} :
    row ∈ rowsOf name start rows ↔
      row ∈ rows ∧ startsWith (name row) start = true ∧ '\x00' ∉ start.toList := by
  unfold rowsOf
  rw [List.mem_mergeSort, List.mem_filter, Sqlite.hasPrefix_iff]

/-- Nothing is found by a prefix with U+0000. -/
theorem rowsOf_nul {start : String} (nul : '\x00' ∈ start.toList) (rows : List ρ) :
    rowsOf name start rows = [] :=
  List.eq_nil_iff_forall_not_mem.mpr fun _ found => (mem_rowsOf.mp found).2.2 nul

/-- The prefix has no U+0000, or none of the names has it. -/
def Findable (names : String → Prop) (start : String) : Prop :=
  '\x00' ∈ start.toList → ∀ name, names name → startsWith name start = false

theorem queried_rowsOf (table : NamedRows ρ name) (start : String) :
    Queried start ((rowsOf name start table.rows).map name) where
  order := by
    have sorted : (rowsOf name start table.rows).Pairwise fun first second =>
        name first ≤ name second := by
      refine (List.pairwise_mergeSort (fun first second third => ?_) (fun first second => ?_) _).imp
        fun le => of_decide_eq_true le
      · simp only [decide_eq_true_eq]
        exact le_trans
      · simp only [Bool.or_eq_true, decide_eq_true_eq]
        exact le_total _ _
    have distinct : (rowsOf name start table.rows).Pairwise fun first second =>
        name first ≠ name second := by
      refine ((List.mergeSort_perm _ _).pairwise_iff fun ne => ne.symm).mpr ?_
      exact (List.pairwise_map.mp table.distinct).sublist List.filter_sublist
    rw [List.pairwise_map]
    exact (sorted.and distinct).imp fun both => lt_of_le_of_ne both.1 both.2
  starts := by
    intro text member
    obtain ⟨row, queried, rfl⟩ := List.mem_map.mp member
    exact (mem_rowsOf.mp queried).2.1

/-- **The rows that are found give the listing** of names, if they can be found by the prefix. -/
theorem isListing_rowsOf {table : NamedRows ρ name} {names : String → Prop} {start delimiter : String}
    {kept : String → Bool} (findable : Findable names start)
    (named : ∀ text, names text ↔ text ∈ table.rows.map name ∧ kept text = true) :
    IsListing names start delimiter (groupSeen start delimiter []
      (((rowsOf name start table.rows).map name).filter kept)) := by
  have found := queried_rowsOf table start
  have queried : Queried start (((rowsOf name start table.rows).map name).filter kept) :=
    ⟨found.order.filter _, fun text member => found.starts text (List.mem_of_mem_filter member)⟩
  have listing : IsListing _ _ delimiter _ := listing_groupSeen queried
  refine ⟨listing.order, fun entry => (listing.mem entry).trans (exists_congr fun text => ?_)⟩
  constructor
  · rintro ⟨member, starts, same⟩
    obtain ⟨inTable, keep⟩ := List.mem_filter.mp member
    obtain ⟨row, read, rfl⟩ := List.mem_map.mp inTable
    exact ⟨(named _).mpr ⟨List.mem_map_of_mem (mem_rowsOf.mp read).1, keep⟩, starts, same⟩
  · rintro ⟨isNamed, starts, same⟩
    have plain : '\x00' ∉ start.toList := fun nul => by
      rw [findable nul text isNamed] at starts
      cases starts
    obtain ⟨inTable, keep⟩ := (named text).mp isNamed
    obtain ⟨row, stored, rfl⟩ := List.mem_map.mp inTable
    exact ⟨List.mem_filter.mpr ⟨List.mem_map_of_mem (mem_rowsOf.mpr ⟨stored, starts, plain⟩), keep⟩,
      starts, same⟩

/-- Whatever is found, the listing is in order. -/
theorem inOrder_rowsOf (table : NamedRows ρ name) (start delimiter : String) (kept : String → Bool) :
    InOrder Entry.key (groupSeen start delimiter []
      (((rowsOf name start table.rows).map name).filter kept)) :=
  have found := queried_rowsOf table start
  (listing_groupSeen ⟨found.order.filter _, fun text member =>
    found.starts text (List.mem_of_mem_filter member)⟩).order

end Rows

/-! ### Listing in pages -/

/-- **A service lists names in pages**, in the states that are allowed: every page but the last is
full; what is listed throughout is listed once, whatever else comes and goes; without changes the
pages make up the listing, and there is an end. -/
structure ListsInPages {σ κ : Type} (allowed : σ → Prop) (call : σ → κ → List Entry × Option κ)
    (first : κ) (names : σ → String → Prop) (start delimiter : String) (max : Nat) : Prop where
  full : ∀ {states pages}, Walk call first states pages → (∀ state ∈ states, allowed state) →
    ∀ page ∈ pages.dropLast, page.length = max
  once : ∀ {states pages}, Walk call first states pages → (∀ state ∈ states, allowed state) →
    ∀ entry, (∀ state ∈ states, ∃ name, names state name ∧ startsWith name start = true ∧
      entryOf start delimiter name = entry) → pages.flatten.count entry = 1
  whole : ∀ {states pages}, Walk call first states pages → ∀ state, allowed state →
    (∀ other ∈ states, other = state) → IsListing (names state) start delimiter pages.flatten
  ends : ∀ state, allowed state → ∃ states pages, Walk call first states pages ∧
    ∀ other ∈ states, other = state

theorem Paging.listsInPages {σ κ : Type} {call : σ → κ → List Entry × Option κ} {first : κ}
    {allowed : σ → Prop} {names : σ → String → Prop} {start delimiter : String} {max : Nat}
    {listing : σ → List Entry} {done : κ → String → Prop}
    (paging : Paging Entry.key listing call done max) (begins : ∀ at', ¬ done first at')
    (listings : ∀ state, allowed state → IsListing (names state) start delimiter (listing state)) :
    ListsInPages allowed call first names start delimiter max where
  full := fun walk _ => walk.full paging
  once := fun walk within entry throughout =>
    walk.once paging (fun state member => ((listings state (within state member)).mem entry).mpr
      (throughout state member)) (begins _)
  whole := fun walk state known fixed => by
    rw [walk.whole paging fixed begins]
    exact listings state known
  ends := fun state _ => exists_walk paging state first

/-- **When a service that finds its rows by prefix lists in pages**: exactly when the names can be
found by the prefix. -/
theorem Paging.listsInPages_iff {σ κ ρ : Type} {name : ρ → String}
    {call : σ → κ → List Entry × Option κ} {first : κ} {allowed : σ → Prop}
    {names : σ → String → Prop} {start delimiter : String} {max : Nat} {kept : String → Bool}
    {done : κ → String → Prop} {table : σ → NamedRows ρ name}
    (paging : Paging Entry.key (fun state => groupSeen start delimiter []
      (((rowsOf name start (table state).rows).map name).filter kept)) call done max)
    (begins : ∀ at', ¬ done first at')
    (named : ∀ state text, names state text ↔ text ∈ (table state).rows.map name ∧ kept text = true) :
    ListsInPages allowed call first names start delimiter max ↔
      ∀ state, allowed state → Findable (names state) start := by
  constructor
  · intro lists state known nul text isNamed
    by_contra starts
    rw [Bool.not_eq_false] at starts
    -- A listing of the state has the entry of the name, and nothing is found.
    obtain ⟨states, pages, walk, fixed⟩ := lists.ends state known
    have listing := lists.whole walk state known fixed
    have member := (listing.mem (entryOf start delimiter text)).mpr ⟨text, isNamed, starts, rfl⟩
    rw [walk.whole paging fixed begins, rowsOf_nul nul] at member
    cases member
  · intro findable
    exact paging.listsInPages begins fun state known =>
      isListing_rowsOf (findable state known) (named state)

end CloudTwin.Lib
