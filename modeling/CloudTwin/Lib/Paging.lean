/-
**Listing in pages.**

A listing is in the order of its keys. A call answers a page of it and a cursor, from which the next
call goes on; what is listed may change between two calls. A cursor tells which keys are done.

* `Paging` — what the pages of a service are; `Walk` — page after page, until there is no cursor.
* `Walk.once` — an entry that is listed throughout is on one page, once.
* `Walk.whole` — without changes the pages make up the listing; `exists_walk` — there is an end.
* `pageAfter`, `pageFrom` — cursors that name the last key of a page, and the first key after it.
* `pageBehind` — the search for the first key behind the cursor that gives the same pages.
* `Enumerates` — what a client sees that hands each token on; `enumerates_behind`.
-/

import Mathlib

namespace CloudTwin.Lib

variable {σ κ ε K : Type} [LinearOrder K]

/-- The entries are in the order of their keys. -/
def InOrder (key : ε → K) (entries : List ε) : Prop :=
  entries.Pairwise fun first second => key first < key second

theorem InOrder.nodup {key : ε → K} {entries : List ε} (order : InOrder key entries) :
    entries.Nodup :=
  order.imp fun less same => absurd (same ▸ less) (lt_irrefl _)

/-- Two lists in order with the same members are the same. -/
theorem InOrder.unique {key : ε → K} {first second : List ε} (order : InOrder key first)
    (order' : InOrder key second) (same : ∀ entry, entry ∈ first ↔ entry ∈ second) :
    first = second := by
  have perm := (List.perm_ext_iff_of_nodup order.nodup order'.nodup).mpr same
  exact perm.eq_of_pairwise (fun _ _ _ _ less more => absurd (less.trans more) (lt_irrefl _)) order
    order'

/-- **A service that lists in pages**: `done` tells which keys a cursor has passed. -/
structure Paging (key : ε → K) (listing : σ → List ε) (call : σ → κ → List ε × Option κ)
    (done : κ → K → Prop) (max : Nat) : Prop where
  some_entry : 0 < max
  order : ∀ state, InOrder key (listing state)
  pageOrder : ∀ state cursor, InOrder key (call state cursor).1
  mem : ∀ state cursor entry, entry ∈ (call state cursor).1 ↔
    entry ∈ listing state ∧ ¬ done cursor (key entry) ∧
      ∀ next, (call state cursor).2 = some next → done next (key entry)
  full : ∀ state cursor next, (call state cursor).2 = some next → (call state cursor).1.length = max
  onward : ∀ state cursor next at', (call state cursor).2 = some next → done cursor at' → done next at'
  closed : ∀ cursor first second, done cursor second → first ≤ second → done cursor first

/-- Page after page: the states at the calls, and the pages. -/
inductive Walk (call : σ → κ → List ε × Option κ) : κ → List σ → List (List ε) → Prop
  | last {cursor : κ} {state : σ} (none : (call state cursor).2 = none) :
      Walk call cursor [state] [(call state cursor).1]
  | next {cursor next : κ} {state : σ} {states : List σ} {pages : List (List ε)}
      (some : (call state cursor).2 = some next) (walk : Walk call next states pages) :
      Walk call cursor (state :: states) ((call state cursor).1 :: pages)

section Walks

variable {key : ε → K} {listing : σ → List ε} {call : σ → κ → List ε × Option κ}
  {done : κ → K → Prop} {max : Nat} (paging : Paging key listing call done max)

include paging

/-- What a cursor has passed is on no later page. -/
theorem Walk.passed {cursor : κ} {states : List σ} {pages : List (List ε)}
    (walk : Walk call cursor states pages) {entry : ε} (past : done cursor (key entry)) :
    entry ∉ pages.flatten := by
  induction walk with
  | last none =>
    rw [List.flatten_singleton]
    exact fun member => ((paging.mem _ _ _).mp member).2.1 past
  | next some walk ih =>
    rw [List.flatten_cons, List.mem_append, not_or]
    exact ⟨fun member => ((paging.mem _ _ _).mp member).2.1 past,
      ih (paging.onward _ _ _ _ some past)⟩

/-- **An entry that is listed throughout is on one page, once.** -/
theorem Walk.once [DecidableEq ε] {cursor : κ} {states : List σ} {pages : List (List ε)}
    (walk : Walk call cursor states pages) {entry : ε}
    (throughout : ∀ state ∈ states, entry ∈ listing state) (ahead : ¬ done cursor (key entry)) :
    pages.flatten.count entry = 1 := by
  induction walk with
  | @last cursor state none =>
    rw [List.flatten_singleton]
    refine List.count_eq_one_of_mem (paging.pageOrder _ _).nodup ((paging.mem _ _ _).mpr
      ⟨throughout _ (List.mem_singleton_self _), ahead, fun next wrong => ?_⟩)
    rw [none] at wrong
    cases wrong
  | @next cursor next state states pages some walk ih =>
    have here := throughout state List.mem_cons_self
    rw [List.flatten_cons, List.count_append]
    by_cases passed : done next (key entry)
    · have member : entry ∈ (call state cursor).1 := by
        refine (paging.mem _ _ _).mpr ⟨here, ahead, fun other same => ?_⟩
        rw [some] at same
        cases same
        exact passed
      rw [List.count_eq_one_of_mem (paging.pageOrder _ _).nodup member,
        List.count_eq_zero_of_not_mem (walk.passed paging passed)]
    · have absent : entry ∉ (call state cursor).1 := fun member =>
        passed (((paging.mem _ _ _).mp member).2.2 next some)
      rw [List.count_eq_zero_of_not_mem absent,
        ih (fun state member => throughout state (List.mem_cons_of_mem _ member)) passed]

/-- Every page but the last is full. -/
theorem Walk.full {cursor : κ} {states : List σ} {pages : List (List ε)}
    (walk : Walk call cursor states pages) : ∀ page ∈ pages.dropLast, page.length = max := by
  induction walk with
  | last none => exact fun page member => absurd member List.not_mem_nil
  | @next cursor next state states pages some walk ih =>
    have more : pages ≠ [] := by
      cases walk with
      | last _ => exact List.cons_ne_nil _ _
      | next _ _ => exact List.cons_ne_nil _ _
    intro page member
    rw [List.dropLast_cons_of_ne_nil more] at member
    rcases List.mem_cons.mp member with rfl | member
    · exact paging.full _ _ _ some
    · exact ih page member

/-- What is on the pages, if nothing changes: all that the cursor has not passed, in order. -/
theorem Walk.rest {cursor : κ} {states : List σ} {pages : List (List ε)}
    (walk : Walk call cursor states pages) {state : σ} (fixed : ∀ other ∈ states, other = state) :
    InOrder key pages.flatten ∧ ∀ entry, entry ∈ pages.flatten ↔
      entry ∈ listing state ∧ ¬ done cursor (key entry) := by
  induction walk with
  | @last cursor other none =>
    obtain rfl := fixed other (List.mem_singleton_self _)
    rw [List.flatten_singleton]
    refine ⟨paging.pageOrder _ _, fun entry => (paging.mem _ _ _).trans ?_⟩
    rw [none]
    exact and_congr_right fun _ => and_iff_left nofun
  | @next cursor next other states pages some walk ih =>
    obtain rfl := fixed other List.mem_cons_self
    obtain ⟨order, members⟩ := ih fun state member => fixed state (List.mem_cons_of_mem _ member)
    rw [List.flatten_cons]
    constructor
    · refine List.pairwise_append.mpr ⟨paging.pageOrder _ _, order, fun first here second later => ?_⟩
      -- The next cursor has passed the one and not the other.
      have passed := ((paging.mem _ _ _).mp here).2.2 next some
      exact lt_of_not_ge fun back =>
        ((members second).mp later).2 (paging.closed _ _ _ passed back)
    · intro entry
      rw [List.mem_append, paging.mem, members]
      constructor
      · rintro (⟨member, ahead, _⟩ | ⟨member, ahead⟩)
        · exact ⟨member, ahead⟩
        · exact ⟨member, fun past => ahead (paging.onward _ _ _ _ some past)⟩
      · rintro ⟨member, ahead⟩
        by_cases passed : done next (key entry)
        · refine Or.inl ⟨member, ahead, fun again same => ?_⟩
          rw [some] at same
          cases same
          exact passed
        · exact Or.inr ⟨member, passed⟩

/-- **Without changes the pages make up the listing.** -/
theorem Walk.whole {cursor : κ} {states : List σ} {pages : List (List ε)}
    (walk : Walk call cursor states pages) {state : σ} (fixed : ∀ other ∈ states, other = state)
    (start : ∀ at', ¬ done cursor at') : pages.flatten = listing state := by
  obtain ⟨order, members⟩ := walk.rest paging fixed
  exact order.unique (paging.order state) fun entry =>
    (members entry).trans (and_iff_left (start _))

/-- **There is an end**, if nothing changes. -/
theorem exists_walk (state : σ) (cursor : κ) :
    ∃ states pages, Walk call cursor states pages ∧ ∀ other ∈ states, other = state := by
  classical
  -- Each page passes entries of the listing that were not passed before.
  generalize size : ((listing state).filter fun entry => ¬ done cursor (key entry)).length = left
  induction left using Nat.strong_induction_on generalizing cursor with
  | _ left ih =>
    cases answered : (call state cursor).2 with
    | none => exact ⟨[state], _, .last answered, fun other member => List.mem_singleton.mp member⟩
    | some next =>
      have fewer : ((listing state).filter fun entry => ¬ done next (key entry)).length < left := by
        have full := paging.full _ _ _ answered
        obtain ⟨entry, member⟩ : ∃ entry, entry ∈ (call state cursor).1 :=
          List.exists_mem_of_length_pos (full ▸ paging.some_entry)
        obtain ⟨listed, ahead, passed⟩ := (paging.mem _ _ _).mp member
        rw [← size]
        have sub : ((listing state).filter fun entry => ¬ done next (key entry)).Sublist
            ((listing state).filter fun entry => ¬ done cursor (key entry)) :=
          List.monotone_filter_right _ fun other later => by
            simp only [decide_eq_true_eq] at later ⊢
            exact fun past => later (paging.onward _ _ _ _ answered past)
        refine lt_of_le_of_ne sub.length_le fun same => ?_
        have equal := sub.eq_of_length same
        have inside : entry ∈ (listing state).filter fun entry => ¬ done cursor (key entry) :=
          List.mem_filter.mpr ⟨listed, by simpa using ahead⟩
        rw [← equal, List.mem_filter] at inside
        exact absurd (passed next answered) (by simpa using inside.2)
      obtain ⟨states, pages, walk, fixed⟩ := ih _ fewer next rfl
      refine ⟨state :: states, _, .next answered walk, fun other member => ?_⟩
      exact (List.mem_cons.mp member).elim id (fixed other)

/-- The same pages with cursors that are written down. -/
theorem Paging.recode {κ' : Type} (encode : κ → κ') (decode : κ' → κ)
    (back : ∀ state cursor next, (call state cursor).2 = some next → decode (encode next) = next) :
    Paging key listing
      (fun state cursor => ((call state (decode cursor)).1, (call state (decode cursor)).2.map encode))
      (fun cursor => done (decode cursor)) max where
  some_entry := paging.some_entry
  order := paging.order
  pageOrder := fun state cursor => paging.pageOrder state (decode cursor)
  mem := fun state cursor entry => by
    refine (paging.mem state (decode cursor) entry).trans ?_
    refine and_congr_right fun _ => and_congr_right fun _ => ?_
    constructor
    · intro passed next written
      obtain ⟨next, some, rfl⟩ := Option.map_eq_some_iff.mp written
      rw [back _ _ _ some]
      exact passed next some
    · intro passed next some
      have := passed (encode next) (Option.map_eq_some_iff.mpr ⟨next, some, rfl⟩)
      rw [back _ _ _ some] at this
      exact this
  full := fun state cursor next written => by
    obtain ⟨next, some, rfl⟩ := Option.map_eq_some_iff.mp written
    exact paging.full _ _ _ some
  onward := fun state cursor next at' written past => by
    obtain ⟨next, some, rfl⟩ := Option.map_eq_some_iff.mp written
    rw [back _ _ _ some]
    exact paging.onward _ _ _ _ some past
  closed := fun cursor => paging.closed (decode cursor)

/-- The same pages of states that hold more. -/
theorem Paging.comap {τ : Type} (view : τ → σ) :
    Paging key (fun state => listing (view state)) (fun state => call (view state)) done max where
  some_entry := paging.some_entry
  order := fun state => paging.order (view state)
  pageOrder := fun state => paging.pageOrder (view state)
  mem := fun state => paging.mem (view state)
  full := fun state => paging.full (view state)
  onward := fun state => paging.onward (view state)
  closed := paging.closed

end Walks

/-! ### Two kinds of cursors -/

section Cursors

variable {key : ε → K}

theorem InOrder.lt_iff {entries : List ε} (order : InOrder key entries) {first second : Nat}
    (inside : first < entries.length) (inside' : second < entries.length) :
    key entries[first] < key entries[second] ↔ first < second := by
  have later := List.pairwise_iff_getElem.mp order
  constructor
  · intro less
    rcases Nat.lt_trichotomy first second with before | same | after
    · exact before
    · subst same
      exact absurd less (lt_irrefl _)
    · exact absurd (less.trans (later _ _ inside' inside after)) (lt_irrefl _)
  · exact later _ _ inside inside'

/-- The first entries are those before the next one. -/
theorem InOrder.mem_take {entries : List ε} (order : InOrder key entries) {count : Nat}
    (inside : count < entries.length) {entry : ε} :
    entry ∈ entries.take count ↔ entry ∈ entries ∧ key entry < key entries[count] := by
  rw [List.mem_take_iff_getElem, List.mem_iff_getElem]
  constructor
  · rintro ⟨index, bound, rfl⟩
    exact ⟨⟨index, by omega, rfl⟩, (order.lt_iff (by omega) inside).mpr (by omega)⟩
  · rintro ⟨⟨index, bound, rfl⟩, less⟩
    exact ⟨index, by have := (order.lt_iff bound inside).mp less; omega, rfl⟩

/-- The first entries are those up to the last of them. -/
theorem InOrder.mem_take_last {entries : List ε} (order : InOrder key entries) {count : Nat}
    (inside : count < entries.length) {entry : ε} :
    entry ∈ entries.take (count + 1) ↔ entry ∈ entries ∧ key entry ≤ key entries[count] := by
  rw [List.mem_take_iff_getElem, List.mem_iff_getElem]
  constructor
  · rintro ⟨index, bound, rfl⟩
    refine ⟨⟨index, by omega, rfl⟩, le_of_not_gt fun more => ?_⟩
    have := (order.lt_iff inside (by omega)).mp more
    omega
  · rintro ⟨⟨index, bound, rfl⟩, le⟩
    refine ⟨index, ?_, rfl⟩
    by_contra beyond
    exact absurd ((order.lt_iff inside bound).mpr (by omega)) (not_lt.mpr le)

/-- A page after a key: if there are more entries, the cursor names the last key of the page. -/
def pageAfter (key : ε → K) (max : Nat) (entries : List ε) (after : Option K) :
    List ε × Option (Option K) :=
  let remaining := entries.filter fun entry => after.all fun last => last < key entry
  let page := remaining.take max
  (page, if max < remaining.length then some (page.getLast?.map key) else none)

/-- A page from a key on: if there are more entries, the cursor names the key of the next one. -/
def pageFrom (key : ε → K) (max : Nat) (entries : List ε) (start : Option K) :
    List ε × Option (Option K) :=
  let remaining := entries.filter fun entry => start.all fun first => first ≤ key entry
  (remaining.take max, remaining[max]?.map fun entry => some (key entry))

theorem mem_after {entries : List ε} {after : Option K} {entry : ε} :
    entry ∈ (entries.filter fun entry => after.all fun last => last < key entry) ↔
      entry ∈ entries ∧ ¬ ∃ last, after = some last ∧ key entry ≤ last := by
  rw [List.mem_filter]
  refine and_congr_right fun _ => ?_
  cases after with
  | none => simp
  | some last => simp

theorem mem_from {entries : List ε} {start : Option K} {entry : ε} :
    entry ∈ (entries.filter fun entry => start.all fun first => first ≤ key entry) ↔
      entry ∈ entries ∧ ¬ ∃ first, start = some first ∧ key entry < first := by
  rw [List.mem_filter]
  refine and_congr_right fun _ => ?_
  cases start with
  | none => simp
  | some first => simp

/-- The cursor after a page names its last entry. -/
theorem pageAfter_next {count : Nat} {entries : List ε} {after : Option K} {next : Option K}
    (some : (pageAfter key (count + 1) entries after).2 = some next) :
    ∃ inside : count + 1 < (entries.filter fun entry => after.all fun last => last < key entry).length,
      next = Option.some (key ((entries.filter fun entry =>
        after.all fun last => last < key entry).get ⟨count, Nat.lt_of_succ_lt inside⟩)) := by
  unfold pageAfter at some
  dsimp only at some
  generalize (entries.filter fun entry => after.all fun last => decide (last < key entry)) = remaining
    at some ⊢
  rw [Option.ite_none_right_eq_some] at some
  obtain ⟨inside, same⟩ := some
  refine ⟨inside, ?_⟩
  rw [← Option.some.inj same, List.getLast?_eq_getElem?, List.length_take,
    Nat.min_eq_left (Nat.le_of_lt inside), Nat.add_sub_cancel,
    List.getElem?_take_of_lt (Nat.lt_succ_self count),
    List.getElem?_eq_getElem (Nat.lt_of_succ_lt inside)]
  rfl

theorem paging_after {listing : σ → List ε} (order : ∀ state, InOrder key (listing state)) {count : Nat} :
    Paging key listing (fun state => pageAfter key (count + 1) (listing state))
      (fun after at' => ∃ last, after = some last ∧ at' ≤ last) (count + 1) where
  some_entry := Nat.succ_pos count
  order := order
  pageOrder := fun state cursor =>
    ((order state).sublist List.filter_sublist).sublist (List.take_sublist _ _)
  mem := fun state cursor entry => by
    have remaining : InOrder key ((listing state).filter fun entry =>
        cursor.all fun last => last < key entry) := (order state).sublist List.filter_sublist
    rw [← and_assoc, ← mem_after]
    cases answered : (pageAfter key (count + 1) (listing state) cursor).2 with
    | none =>
      have all : ((listing state).filter fun entry =>
          cursor.all fun last => last < key entry).length ≤ count + 1 := by
        refine Nat.le_of_not_lt fun more => ?_
        unfold pageAfter at answered
        dsimp only at answered
        rw [if_pos more] at answered
        cases answered
      show entry ∈ List.take (count + 1) _ ↔ _
      rw [List.take_of_length_le all]
      exact (and_iff_left nofun).symm
    | some next =>
      obtain ⟨inside, rfl⟩ := pageAfter_next answered
      show entry ∈ List.take (count + 1) _ ↔ _
      rw [remaining.mem_take_last (Nat.lt_of_succ_lt inside)]
      refine and_congr_right fun _ => ?_
      constructor
      · rintro le _ ⟨⟩
        exact ⟨_, rfl, le⟩
      · intro passed
        obtain ⟨last, same, le⟩ := passed _ rfl
        cases same
        exact le
  full := fun state cursor next answered => by
    obtain ⟨inside, _⟩ := pageAfter_next answered
    show (List.take (count + 1) _).length = _
    rw [List.length_take, Nat.min_eq_left (Nat.le_of_lt inside)]
  onward := fun state cursor next at' answered past => by
    obtain ⟨inside, rfl⟩ := pageAfter_next answered
    obtain ⟨last, rfl, le⟩ := past
    -- The last entry of the page comes after the key where the page begins.
    have member := mem_after.mp (List.getElem_mem (Nat.lt_of_succ_lt inside))
    exact ⟨_, rfl, le.trans (le_of_not_ge fun back => member.2 ⟨last, rfl, back⟩)⟩
  closed := fun cursor first second past le => by
    obtain ⟨last, same, before⟩ := past
    exact ⟨last, same, le.trans before⟩

/-- The cursor names the entry after the page. -/
theorem pageFrom_next {max : Nat} {entries : List ε} {start : Option K} {next : Option K}
    (some : (pageFrom key max entries start).2 = some next) :
    ∃ inside : max < (entries.filter fun entry => start.all fun first => first ≤ key entry).length,
      next = Option.some (key ((entries.filter fun entry =>
        start.all fun first => first ≤ key entry)[max])) := by
  unfold pageFrom at some
  dsimp only at some
  generalize (entries.filter fun entry => start.all fun first => decide (first ≤ key entry)) = remaining
    at some ⊢
  obtain ⟨entry, found, same⟩ := Option.map_eq_some_iff.mp some
  obtain ⟨inside, rfl⟩ := List.getElem?_eq_some_iff.mp found
  exact ⟨inside, same.symm⟩

theorem paging_from {listing : σ → List ε} (order : ∀ state, InOrder key (listing state)) {max : Nat}
    (some_entry : 0 < max) :
    Paging key listing (fun state => pageFrom key max (listing state))
      (fun start at' => ∃ first, start = some first ∧ at' < first) max where
  some_entry := some_entry
  order := order
  pageOrder := fun state cursor =>
    ((order state).sublist List.filter_sublist).sublist (List.take_sublist _ _)
  mem := fun state cursor entry => by
    have remaining : InOrder key ((listing state).filter fun entry =>
        cursor.all fun first => first ≤ key entry) := (order state).sublist List.filter_sublist
    rw [← and_assoc, ← mem_from]
    cases answered : (pageFrom key max (listing state) cursor).2 with
    | none =>
      have all : ((listing state).filter fun entry =>
          cursor.all fun first => first ≤ key entry).length ≤ max := by
        unfold pageFrom at answered
        exact List.getElem?_eq_none_iff.mp (Option.map_eq_none_iff.mp answered)
      show entry ∈ List.take max _ ↔ _
      rw [List.take_of_length_le all]
      exact (and_iff_left nofun).symm
    | some next =>
      obtain ⟨inside, rfl⟩ := pageFrom_next answered
      show entry ∈ List.take max _ ↔ _
      rw [remaining.mem_take inside]
      refine and_congr_right fun _ => ?_
      constructor
      · rintro less _ ⟨⟩
        exact ⟨_, rfl, less⟩
      · intro passed
        obtain ⟨first, same, less⟩ := passed _ rfl
        cases same
        exact less
  full := fun state cursor next answered => by
    obtain ⟨inside, _⟩ := pageFrom_next answered
    show (List.take max _).length = _
    rw [List.length_take, Nat.min_eq_left (Nat.le_of_lt inside)]
  onward := fun state cursor next at' answered past => by
    obtain ⟨inside, rfl⟩ := pageFrom_next answered
    obtain ⟨first, rfl, less⟩ := past
    have member := mem_from.mp (List.getElem_mem inside)
    exact ⟨_, rfl, lt_of_lt_of_le less (le_of_not_gt fun back => member.2 ⟨first, rfl, back⟩)⟩
  closed := fun cursor first second past le => by
    obtain ⟨start, same, before⟩ := past
    exact ⟨start, same, lt_of_le_of_lt le before⟩

/-- Where the first entry stands whose key comes after the cursor. -/
def startBehind (key : ε → K) (entries : List ε) : Option K → Nat
  | some last => entries.findIdx fun entry => last < key entry
  | none => 0

/-- A page from there on. -/
def pageBehind (key : ε → K) (max : Nat) (entries : List ε) (after : Option K) :
    List ε × Option K :=
  let start := startBehind key entries after
  let page := (entries.drop start).take max
  (page, if start + page.length < entries.length then page.getLast?.map key else none)

/-- Behind the first entry after a key there are only such entries. -/
theorem InOrder.drop_findIdx {entries : List ε} (order : InOrder key entries) (last : K) :
    entries.drop (entries.findIdx fun entry => decide (last < key entry)) =
      entries.filter fun entry => decide (last < key entry) := by
  induction entries with
  | nil => rfl
  | cons first rest ih =>
    obtain ⟨least, order⟩ := List.pairwise_cons.mp order
    rw [List.findIdx_cons]
    by_cases after : last < key first
    · rw [decide_eq_true after, List.filter_eq_self.mpr]
      · rfl
      · intro entry member
        rcases List.mem_cons.mp member with rfl | later
        · exact decide_eq_true after
        · exact decide_eq_true (after.trans (least entry later))
    · rw [decide_eq_false after, List.filter_cons_of_neg (by rw [decide_eq_false after]; decide)]
      exact ih order

theorem drop_start {entries : List ε} (order : InOrder key entries) (after : Option K) :
    entries.drop (startBehind key entries after) =
      entries.filter fun entry => after.all fun last => decide (last < key entry) := by
  cases after with
  | none => exact (List.filter_eq_self.mpr fun _ _ => rfl).symm
  | some last => exact order.drop_findIdx last

/-- **The search gives the pages after a key.** -/
theorem pageBehind_eq {entries : List ε} (order : InOrder key entries) {max : Nat}
    (some_entry : 0 < max) (after : Option K) :
    pageBehind key max entries after =
      ((pageAfter key max entries after).1, (pageAfter key max entries after).2.bind id) := by
  have remaining := drop_start order after
  have size := congrArg List.length remaining
  unfold pageBehind pageAfter
  dsimp only
  rw [List.length_drop] at size
  rw [remaining]
  generalize (entries.filter fun entry => after.all fun last => decide (last < key entry)) = left
    at size ⊢
  refine Prod.ext rfl ?_
  show (if _ < _ then _ else _) = Option.bind (if _ < _ then _ else _) id
  rw [List.length_take]
  by_cases more : max < left.length
  · rw [if_pos more, if_pos (by omega)]
    rfl
  · rw [if_neg more, if_neg (by omega)]
    rfl

end Cursors

/-! ### Tokens -/

section Tokens

variable {τ ε' : Type}

/-- A token that a client can hold: none at first, then what a call returned. -/
inductive Issued (call : σ → Option τ → Except ε' (List ε × Option τ)) : Option τ → Prop
  | start : Issued call none
  | next {token : Option τ} {state : σ} {page : List ε} {next : τ} (issued : Issued call token)
      (answer : call state token = .ok (page, some next)) : Issued call (some next)

/-- Call after call, each with the token of the one before, until none is returned: the states at the
calls, and the pages. -/
inductive Reads (call : σ → Option τ → Except ε' (List ε × Option τ)) :
    Option τ → List σ → List (List ε) → Prop
  | last {token : Option τ} {state : σ} {page : List ε} (answer : call state token = .ok (page, none)) :
      Reads call token [state] [page]
  | next {token : Option τ} {state : σ} {states : List σ} {page : List ε} {pages : List (List ε)}
      {next : τ} (answer : call state token = .ok (page, some next))
      (reads : Reads call (some next) states pages) :
      Reads call token (state :: states) (page :: pages)

/-- **A client that hands each token on sees everything once.** -/
structure Enumerates [DecidableEq ε] (listing : σ → List ε)
    (call : σ → Option τ → Except ε' (List ε × Option τ)) (max : Nat) : Prop where
  answers : ∀ token, Issued call token → ∀ state, ∃ page next, call state token = .ok (page, next) ∧
    page.length ≤ max
  ends : ∀ state, ∃ states pages, Reads call none states pages ∧ ∀ other ∈ states, other = state
  whole : ∀ states pages, Reads call none states pages → ∀ state, (∀ other ∈ states, other = state) →
    pages.flatten = listing state
  once : ∀ states pages, Reads call none states pages → ∀ entry,
    (∀ state ∈ states, entry ∈ listing state) → pages.flatten.count entry = 1

variable {key : ε → K} {listing : σ → List ε} {call : σ → Option τ → Except ε' (List ε × Option τ)}
  {count : Nat} {encode : K → τ}

/-- The cursor is the key of an entry that is listed in some state. -/
def OfEntry (key : ε → K) (listing : σ → List ε) (after : Option K) : Prop :=
  ∀ last, after = some last → ∃ entry state, entry ∈ listing state ∧ last = key entry

/-- The calls answer the pages behind a key, with the key of the last entry as the token. -/
def AnswersBehind (key : ε → K) (listing : σ → List ε)
    (call : σ → Option τ → Except ε' (List ε × Option τ)) (max : Nat) (encode : K → τ) : Prop :=
  ∀ state after, OfEntry key listing after →
    call state (after.map encode) =
      .ok ((pageBehind key max (listing state) after).1,
        (pageBehind key max (listing state) after).2.map encode)

theorem ofEntry_next {max : Nat} {state : σ} {after : Option K} {last : K}
    (next : (pageBehind key max (listing state) after).2 = some last) :
    OfEntry key listing (some last) := by
  rintro _ ⟨⟩
  unfold pageBehind at next
  dsimp only at next
  rw [Option.ite_none_right_eq_some] at next
  obtain ⟨entry, isLast, rfl⟩ := Option.map_eq_some_iff.mp next.2
  exact ⟨entry, state, List.mem_of_mem_drop (List.mem_of_mem_take (List.mem_of_getLast? isLast)), rfl⟩

theorem behind_next {entries : List ε} (order : InOrder key entries) {after : Option K} {last : K} :
    (pageBehind key (count + 1) entries after).2 = some last ↔
      (pageAfter key (count + 1) entries after).2 = some (some last) := by
  rw [pageBehind_eq order (Nat.succ_pos count)]
  cases answered : (pageAfter key (count + 1) entries after).2 with
  | none => simp
  | some next => simp

theorem behind_last {entries : List ε} (order : InOrder key entries) {after : Option K} :
    (pageBehind key (count + 1) entries after).2 = none ↔
      (pageAfter key (count + 1) entries after).2 = none := by
  rw [pageBehind_eq order (Nat.succ_pos count)]
  cases answered : (pageAfter key (count + 1) entries after).2 with
  | none => simp
  | some next =>
    obtain ⟨_, rfl⟩ := pageAfter_next answered
    simp

theorem pageBehind_page {entries : List ε} (order : InOrder key entries) (after : Option K) :
    (pageBehind key (count + 1) entries after).1 = (pageAfter key (count + 1) entries after).1 := by
  rw [pageBehind_eq order (Nat.succ_pos count)]

section Served

variable (served : AnswersBehind key listing call (count + 1) encode)

include served

theorem Issued.ofEntry {token : Option τ} (issued : Issued call token) :
    ∃ after, OfEntry key listing after ∧ token = after.map encode := by
  induction issued with
  | start => exact ⟨none, nofun, rfl⟩
  | @next token state page next issued answer ih =>
    obtain ⟨after, listed, rfl⟩ := ih
    rw [served state after listed] at answer
    obtain ⟨last, isNext, rfl⟩ := Option.map_eq_some_iff.mp (Prod.mk.inj (Except.ok.inj answer)).2
    exact ⟨some last, ofEntry_next isNext, rfl⟩

variable (order : ∀ state, InOrder key (listing state))

include order

/-- A client reads the pages of a walk. -/
theorem Reads.walk {token : Option τ} {states : List σ} {pages : List (List ε)}
    (reads : Reads call token states pages) : ∀ after, OfEntry key listing after →
      token = after.map encode →
      Walk (fun state => pageAfter key (count + 1) (listing state)) after states pages := by
  induction reads with
  | @last token state page answer =>
    rintro after listed rfl
    rw [served state after listed] at answer
    obtain ⟨rfl, none⟩ := Prod.mk.inj (Except.ok.inj answer)
    rw [pageBehind_page (order state)]
    exact .last ((behind_last (order state)).mp (Option.map_eq_none_iff.mp none))
  | @next token state states page pages next answer reads ih =>
    rintro after listed rfl
    rw [served state after listed] at answer
    obtain ⟨rfl, some⟩ := Prod.mk.inj (Except.ok.inj answer)
    obtain ⟨last, isNext, rfl⟩ := Option.map_eq_some_iff.mp some
    rw [pageBehind_page (order state)]
    exact .next ((behind_next (order state)).mp isNext) (ih _ (ofEntry_next isNext) rfl)

/-- The pages of a walk can be read. -/
theorem Walk.reads {after : Option K} {states : List σ} {pages : List (List ε)}
    (walk : Walk (fun state => pageAfter key (count + 1) (listing state)) after states pages)
    (listed : OfEntry key listing after) : Reads call (after.map encode) states pages := by
  induction walk with
  | @last after state none =>
    rw [← pageBehind_page (order state)]
    refine .last ?_
    rw [served state after listed, (behind_last (order state)).mpr none]
    rfl
  | @next after next state states pages some walk ih =>
    obtain ⟨_, rfl⟩ := pageAfter_next some
    have isNext := (behind_next (order state)).mpr some
    rw [← pageBehind_page (order state)]
    refine .next ?_ (ih (ofEntry_next isNext))
    rw [served state after listed, isNext]
    rfl

/-- **Tokens made of the last key enumerate.** -/
theorem enumerates_behind [DecidableEq ε] : Enumerates listing call (count + 1) where
  answers := fun token issued state => by
    obtain ⟨after, listed, rfl⟩ := issued.ofEntry served
    refine ⟨_, _, served state after listed, ?_⟩
    show (List.take (count + 1) _).length ≤ count + 1
    exact List.length_take_le _ _
  ends := fun state => by
    obtain ⟨states, pages, walk, fixed⟩ := exists_walk (paging_after order) state none
    exact ⟨states, pages, walk.reads served order nofun, fixed⟩
  whole := fun states pages reads state fixed =>
    (reads.walk served order none nofun rfl).whole (paging_after order) fixed
      (by rintro at' ⟨last, wrong, _⟩; cases wrong)
  once := fun states pages reads entry throughout =>
    (reads.walk served order none nofun rfl).once (paging_after order) throughout
      (by rintro ⟨last, wrong, _⟩; cases wrong)

end Served

end Tokens

end CloudTwin.Lib
