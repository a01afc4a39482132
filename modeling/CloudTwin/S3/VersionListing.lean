/-
**Listing the versions of a bucket** (`aws/s3/service.rs`, `list_versions`).

A page lists versions and delete markers by key, and of one key the newest first. It resumes inside the
versions of the marker's key by skipping them until the marker's version has passed. If the client has
deleted that version, the older versions of the key are skipped with it.

* `listVersionRows` — the loop over the rows; `listVersions`, a page.
* `scanRows` — the loop without the limit and the delimiter; `scanRows_rows` and `scanRows_latest` say
  what it lists.
* `CanResume` — the marker's version is still there, or no older version of its key is left.
* `list_versions_resumes` — a page that can resume holds the versions after the marker.
* `Session` — a client that takes pages and deletes versions between them; `versions_consumed`, what
  it is given if every page can resume; `versions_skipped`, a client that is not given a version.
-/

import CloudTwin.S3.Listing

namespace CloudTwin.S3

open Lib Lib.Text

set_option linter.unusedSectionVars false

/-! ### Pages -/

structure VersionEntry where
  key : String
  versionId : String
  isDeleteMarker : Bool
  isLatest : Bool
  size : Nat
  etag : String
  createdAt : Int
  storageClass : String

/-- What one turn of the loop pushes. -/
inductive VersionListed where
  | entry (entry : VersionEntry)
  | rolled (common : String)

/-- The key and the version id of an entry. -/
def VersionListed.version : VersionListed → Option (String × String)
  | .entry found => some (found.key, found.versionId)
  | .rolled _ => none

structure VersionPage where
  /-- `entries` and `common_prefixes`, in the order in which they are pushed. -/
  listed : List VersionListed
  truncated : Bool
  nextKeyMarker : Option String
  nextVersionMarker : Option String

def VersionPage.versions (page : VersionPage) : List (String × String) :=
  page.listed.filterMap VersionListed.version

def VersionPage.default : VersionPage where
  listed := []
  truncated := false
  nextKeyMarker := none
  nextVersionMarker := none

def versionEntryOf (row : VersionRow) (isLatest : Bool) : VersionEntry where
  key := row.key
  versionId := row.versionId
  isDeleteMarker := row.isDeleteMarker
  isLatest := isLatest
  size := row.size
  etag := row.etag
  createdAt := row.createdAt
  storageClass := row.objMeta.storageClassText

/-- Whether the row passes the markers, and whether versions of the marker's key are still skipped:
they are up to and including the marker's version. -/
def passesMarker (keyMarker versionMarker : Option String) (skipping : Bool) (row : VersionRow) :
    Bool × Bool :=
  match keyMarker with
  | none => (true, skipping)
  | some marker =>
    if versionMarker.isSome then
      if row.key < marker then (false, skipping)
      else if row.key = marker ∧ skipping = true then
        (false, if some row.versionId = versionMarker then false else true)
      else (true, skipping)
    else (decide (marker < row.key), skipping)

/-- The common prefix that is now the last one. -/
def versionListedAs (params : ListParams) (row : VersionRow) (isLatest : Bool) : VersionListed :=
  match commonPrefix row.key params.keyPrefix params.delim with
  | some common => .rolled common
  | none => .entry (versionEntryOf row isLatest)

def lastCommonOf (lastCommon : Option String) : VersionListed → Option String
  | .rolled common => some common
  | .entry _ => lastCommon

/-- **The loop over the rows**: what it pushes, and whether it stops at the limit. -/
def listVersionRows (params : ListParams) (keyMarker versionMarker : Option String)
    (prevKey lastCommon : Option String) (skipping : Bool) (count : Nat) :
    List VersionRow → List VersionListed × Bool
  | [] => ([], false)
  | row :: rest =>
    if startsWith row.key params.keyPrefix = false then ([], false)
    else
      let isLatest := prevKey != some row.key
      let passed := passesMarker keyMarker versionMarker skipping row
      if passed.1 = false ∨ ((commonPrefix row.key params.keyPrefix params.delim).any fun common =>
          lastCommon == some common || keyMarker == some common) = true then
        listVersionRows params keyMarker versionMarker (some row.key) lastCommon passed.2 count rest
      else if count ≥ params.maxKeys then ([], true)
      else
        let listed := versionListedAs params row isLatest
        let later := listVersionRows params keyMarker versionMarker (some row.key)
          (lastCommonOf lastCommon listed) passed.2 (count + 1) rest
        (listed :: later.1, later.2)

/-- `ORDER BY 1, 3 DESC`. -/
def versionOrder (first second : VersionRow) : Prop :=
  first.key < second.key ∨ (first.key = second.key ∧ second.seq ≤ first.seq)

instance : DecidableRel versionOrder :=
  fun _ _ => inferInstanceAs (Decidable (_ ∨ _))

/-- The rows of both tables in a bucket. -/
def bucketVersions (store : Store) (bucket : String) : List VersionRow :=
  ((store.objects.filter fun row => row.bucket == bucket).map live) ++
    store.versions.filter fun row => row.bucket == bucket

def versionRowsFrom (store : Store) (bucket start : String) : List VersionRow :=
  ((bucketVersions store bucket).filter fun row => decide (start ≤ row.key)).insertionSort
    versionOrder

section External

variable [External] [S3External]

/-- **A page of the versions.** -/
def listVersions (store : Store) (bucket : String) (params : ListParams)
    (versionMarker : Option String) : S3Result VersionPage := do
  requireBucket store bucket
  if params.maxKeys = 0 then return VersionPage.default
  let keyMarker := params.after.filter fun key => !key.isEmpty
  let versionMarker := versionMarker.filter fun version => !version.isEmpty && keyMarker.isSome
  let start := max params.keyPrefix (keyMarker.getD "")
  let listed := listVersionRows params keyMarker versionMarker none none versionMarker.isSome 0
    (versionRowsFrom store bucket start)
  let last := if listed.2 then listed.1.getLast? else none
  return {
    listed := listed.1
    truncated := listed.2
    nextKeyMarker := last.map fun
      | .entry entry => entry.key
      | .rolled common => common
    nextVersionMarker := last.bind fun
      | .entry entry => some entry.versionId
      | .rolled _ => none }

/-! ### The loop without the limit -/

/-- The rows that the loop would list without the limit, and whether each is the latest of its key. -/
def scanRows (params : ListParams) (keyMarker versionMarker : Option String) :
    Option String → Bool → List VersionRow → List (VersionRow × Bool)
  | _, _, [] => []
  | prevKey, skipping, row :: rest =>
    if startsWith row.key params.keyPrefix = false then []
    else
      let passed := passesMarker keyMarker versionMarker skipping row
      let later := scanRows params keyMarker versionMarker (some row.key) passed.2 rest
      if passed.1 = false then later else (row, prevKey != some row.key) :: later

def listedEntry (hit : VersionRow × Bool) : VersionListed :=
  .entry (versionEntryOf hit.1 hit.2)

theorem listVersionRows_eq {params : ListParams} (plain : params.delim = none)
    (keyMarker versionMarker : Option String) (rows : List VersionRow) :
    ∀ (prevKey : Option String) (skipping : Bool) (count : Nat),
      listVersionRows params keyMarker versionMarker prevKey none skipping count rows =
        (((scanRows params keyMarker versionMarker prevKey skipping rows).map listedEntry).take
            (params.maxKeys - count),
          decide (params.maxKeys - count <
            (scanRows params keyMarker versionMarker prevKey skipping rows).length)) := by
  have whole : ∀ row : VersionRow, commonPrefix row.key params.keyPrefix params.delim = none := by
    intro row
    rw [plain]
    rfl
  induction rows with
  | nil =>
    intro prevKey skipping count
    simp [listVersionRows, scanRows]
  | cons row rest ih =>
    intro prevKey skipping count
    unfold listVersionRows scanRows
    split
    · simp
    · simp only [whole, Option.any_none, Bool.false_eq_true, or_false]
      split
      · exact ih _ _ count
      · split
        · rename_i full
          have none : params.maxKeys - count = 0 := Nat.sub_eq_zero_of_le full
          rw [none, List.take_zero, List.length_cons, decide_eq_true (Nat.succ_pos _)]
        · rename_i room
          have more : params.maxKeys - count = params.maxKeys - (count + 1) + 1 := by omega
          have entry : versionListedAs params row (prevKey != some row.key) =
              listedEntry (row, prevKey != some row.key) := by
            unfold versionListedAs
            rw [whole]
            rfl
          rw [entry]
          show (_ :: (listVersionRows _ _ _ _ none _ _ _).1, _) = _
          rw [show lastCommonOf none (listedEntry (row, prevKey != some row.key)) = none from rfl]
          simp only [ih, more, List.map_cons, List.take_succ_cons, List.length_cons,
            Nat.add_lt_add_iff_right]

/-! ### What the loop lists -/

/-- The version that the markers name, and its sequence number. -/
structure Marker where
  key : String
  versionId : String
  seq : Nat

/-- The row comes after the marker. -/
def beyond (marker : Option Marker) (row : VersionRow) : Bool :=
  marker.all fun marker =>
    decide (marker.key < row.key) || (decide (marker.key = row.key) && decide (row.seq < marker.seq))

theorem beyond_iff {named : Marker} {row : VersionRow} :
    beyond (some named) row = true ↔
      named.key < row.key ∨ (named.key = row.key ∧ row.seq < named.seq) := by
  unfold beyond
  rw [Option.all_some, Bool.or_eq_true, Bool.and_eq_true, decide_eq_true_iff, decide_eq_true_iff,
    decide_eq_true_iff]

/-- The rows are in order, and no two of a key have one sequence number. -/
def InOrder (rows : List VersionRow) : Prop :=
  rows.Pairwise fun first second =>
    first.key < second.key ∨ (first.key = second.key ∧ second.seq < first.seq)

/-- **The marker's version is still to be met, or no older version of its key is left.** -/
def CanResume (marker : Marker) (rows : List VersionRow) : Prop :=
  (∀ row ∈ rows, row.key = marker.key → row.versionId = marker.versionId → row.seq = marker.seq) ∧
  ∀ row ∈ rows, row.key = marker.key → row.seq < marker.seq →
    ∃ named ∈ rows, named.key = marker.key ∧ named.versionId = marker.versionId

/-- The state of the skipping fits the rows that follow. -/
def Skips (marker : Option Marker) (skipping : Bool) (rows : List VersionRow) : Prop :=
  ∀ named, marker = some named →
    if skipping then CanResume named rows
    else ∀ row ∈ rows, row.key = named.key → row.seq < named.seq

section Skipping

variable {named : Marker} {skipping : Bool} {row : VersionRow} {rest : List VersionRow}

theorem InOrder.not_before (ordered : InOrder (row :: rest)) : ∀ other ∈ rest, row.key ≤ other.key := by
  intro other member
  rcases (List.pairwise_cons.mp ordered).1 other member with less | ⟨same, _⟩
  · exact le_of_lt less
  · exact le_of_eq same

/-- What follows a version of a key is older. -/
theorem InOrder.older (ordered : InOrder (row :: rest)) :
    ∀ other ∈ rest, other.key = row.key → other.seq < row.seq := by
  intro other member same
  rcases (List.pairwise_cons.mp ordered).1 other member with less | ⟨_, less⟩
  · exact absurd same.symm (ne_of_lt less)
  · exact less

theorem not_beyond_before (less : row.key < named.key) : ¬ beyond (some named) row = true := by
  rw [beyond_iff]
  rintro (more | ⟨same, _⟩)
  · exact lt_irrefl _ (less.trans more)
  · exact absurd same.symm (ne_of_lt less)

/-- A row that is not the marker's version. -/
theorem CanResume.tail (resumes : CanResume named (row :: rest))
    (other : ¬ (row.key = named.key ∧ row.versionId = named.versionId)) : CanResume named rest := by
  refine ⟨fun later member => resumes.1 later (List.mem_cons_of_mem _ member),
    fun later member key seq => ?_⟩
  obtain ⟨found, there, same, id⟩ := resumes.2 later (List.mem_cons_of_mem _ member) key seq
  rcases List.mem_cons.mp there with rfl | there
  · exact absurd ⟨same, id⟩ other
  · exact ⟨found, there, same, id⟩

theorem Skips.before (skips : Skips (some named) skipping (row :: rest))
    (less : row.key < named.key) : Skips (some named) skipping rest := by
  rintro _ ⟨⟩
  have fits := skips named rfl
  cases skipping with
  | false => exact fun other member => fits other (List.mem_cons_of_mem _ member)
  | true => exact CanResume.tail fits fun same => absurd same.1 (ne_of_lt less)

/-- The marker's version, if it is not this row, is still to come, so this row is newer. -/
theorem Skips.not_beyond (skips : Skips (some named) true (row :: rest))
    (ordered : InOrder (row :: rest)) (key : row.key = named.key) :
    ¬ beyond (some named) row = true := by
  have fits : CanResume named (row :: rest) := skips named rfl
  have notOlder : ¬ row.seq < named.seq := by
    intro less
    obtain ⟨found, there, same, id⟩ := fits.2 row List.mem_cons_self key less
    have seq := fits.1 found there same id
    rcases List.mem_cons.mp there with rfl | there
    · omega
    · have := ordered.older found there (same.trans key.symm)
      omega
  rw [beyond_iff]
  rintro (more | ⟨_, less⟩)
  · exact absurd key.symm (ne_of_lt more)
  · exact notOlder less

/-- The row is the marker's version: what follows it of the key is older. -/
theorem Skips.met (skips : Skips (some named) true (row :: rest)) (ordered : InOrder (row :: rest))
    (key : row.key = named.key) (id : row.versionId = named.versionId) :
    Skips (some named) false rest := by
  rintro _ ⟨⟩
  have fits : CanResume named (row :: rest) := skips named rfl
  have seq := fits.1 row List.mem_cons_self key id
  exact fun other member same => seq ▸ ordered.older other member (same.trans key.symm)

theorem Skips.unmet (skips : Skips (some named) true (row :: rest))
    (id : row.versionId ≠ named.versionId) : Skips (some named) true rest := by
  rintro _ ⟨⟩
  exact CanResume.tail (skips named rfl) fun same => id same.2

theorem Skips.beyond (skips : Skips (some named) skipping (row :: rest))
    (notLess : ¬ row.key < named.key) (resumed : ¬ (row.key = named.key ∧ skipping = true)) :
    beyond (some named) row = true := by
  rw [beyond_iff]
  rcases lt_or_eq_of_le (not_lt.mp notLess) with more | same
  · exact Or.inl more
  · have stopped : skipping = false := Bool.eq_false_iff.mpr fun still => resumed ⟨same.symm, still⟩
    subst stopped
    exact Or.inr ⟨same, skips named rfl row List.mem_cons_self same.symm⟩

theorem Skips.behind (skips : Skips (some named) skipping (row :: rest))
    (ordered : InOrder (row :: rest)) (notLess : ¬ row.key < named.key)
    (resumed : ¬ (row.key = named.key ∧ skipping = true)) : Skips (some named) skipping rest := by
  rintro _ ⟨⟩
  cases skipping with
  | false => exact fun other member => skips named rfl other (List.mem_cons_of_mem _ member)
  | true =>
    have more : named.key < row.key :=
      lt_of_le_of_ne (not_lt.mp notLess) fun same => resumed ⟨same.symm, rfl⟩
    have away : ∀ other ∈ rest, other.key ≠ named.key := fun other member same =>
      absurd (lt_of_lt_of_le more (ordered.not_before other member)) (by rw [same]; exact lt_irrefl _)
    exact ⟨fun other member same => absurd same (away other member),
      fun other member same => absurd same (away other member)⟩

/-- A row without the prefix, and not before it, is followed by none that has it. -/
theorem no_prefix_left {start : String} (ordered : InOrder (row :: rest)) (above : start ≤ row.key)
    (starts : ¬ startsWith row.key start = true) :
    ∀ other ∈ row :: rest, ¬ startsWith other.key start = true := by
  intro other member startsOther
  rcases List.mem_cons.mp member with rfl | member
  · exact starts startsOther
  · exact starts (startsWith_iff.mpr (prefix_between (startsWith_iff.mp startsOther)
      (String.le_iff_toList_le.mp above)
      (String.le_iff_toList_le.mp (ordered.not_before other member))))

end Skipping

theorem scanRows_rows {params : ListParams} (marker : Option Marker) {rows : List VersionRow} :
    ∀ {prevKey : Option String} {skipping : Bool}, InOrder rows →
      (∀ row ∈ rows, params.keyPrefix ≤ row.key) → Skips marker skipping rows →
      (scanRows params (marker.map Marker.key) (marker.map Marker.versionId) prevKey skipping
        rows).map Prod.fst =
        rows.filter fun row => startsWith row.key params.keyPrefix && beyond marker row := by
  induction rows with
  | nil => exact fun _ _ _ => rfl
  | cons row rest ih =>
    intro prevKey skipping ordered above skips
    have orderedRest : InOrder rest := (List.pairwise_cons.mp ordered).2
    have aboveRest : ∀ other ∈ rest, params.keyPrefix ≤ other.key :=
      fun other member => above other (List.mem_cons_of_mem _ member)
    unfold scanRows
    by_cases starts : startsWith row.key params.keyPrefix = true
    · rw [if_neg (by rw [starts]; nofun)]
      cases marker with
      | none =>
        have skipsRest : Skips none skipping rest := fun _ => nofun
        simp only [Option.map_none, passesMarker, Bool.true_eq_false, if_false, List.map_cons]
        have after := @ih (some row.key) skipping orderedRest aboveRest skipsRest
        rw [Option.map_none, Option.map_none] at after
        rw [after, List.filter_cons, if_pos (by rw [starts]; rfl)]
      | some named =>
        simp only [Option.map_some, passesMarker, Option.isSome_some, if_true]
        by_cases less : row.key < named.key
        · have out := not_beyond_before less
          rw [if_pos less, if_pos rfl, List.filter_cons,
            if_neg fun both => out (Bool.and_eq_true_iff.mp both).2]
          exact ih orderedRest aboveRest (skips.before less)
        · rw [if_neg less]
          by_cases skipped : row.key = named.key ∧ skipping = true
          · rw [if_pos skipped]
            obtain ⟨key, rfl⟩ := skipped
            have out := skips.not_beyond ordered key
            rw [if_pos rfl, List.filter_cons,
              if_neg fun both => out (Bool.and_eq_true_iff.mp both).2]
            simp only
            by_cases id : row.versionId = named.versionId
            · rw [if_pos (congrArg some id)]
              exact ih orderedRest aboveRest (skips.met ordered key id)
            · rw [if_neg fun same => id (Option.some.inj same)]
              exact ih orderedRest aboveRest (skips.unmet id)
          · have inside := skips.beyond less skipped
            rw [if_neg skipped, if_neg (by simp), List.filter_cons,
              if_pos (by rw [starts, inside]; rfl), List.map_cons]
            exact congrArg (row :: ·) (ih orderedRest aboveRest (skips.behind ordered less skipped))
    · rw [if_pos (Bool.eq_false_iff.mpr starts)]
      symm
      refine List.filter_eq_nil_iff.mpr fun other member holds => ?_
      exact no_prefix_left ordered (above row List.mem_cons_self) starts other member
        (Bool.and_eq_true_iff.mp holds).1

/-- **IsLatest** is said of the newest version of its key. -/
theorem scanRows_latest {params : ListParams} (keyMarker versionMarker : Option String)
    {rows : List VersionRow} :
    ∀ {done : List VersionRow} {skipping : Bool}, InOrder (done ++ rows) →
      ∀ hit ∈ scanRows params keyMarker versionMarker (done.getLast?.map fun row => row.key) skipping
        rows, hit.1 ∈ rows ∧ (hit.2 = true ↔
          ∀ other ∈ done ++ rows, other.key = hit.1.key → other.seq ≤ hit.1.seq) := by
  induction rows with
  | nil => exact fun _ _ => nofun
  | cons row rest ih =>
    intro done skipping ordered hit member
    unfold scanRows at member
    split at member
    · cases member
    · have later : ∀ hit ∈ scanRows params keyMarker versionMarker (some row.key)
          (passesMarker keyMarker versionMarker skipping row).2 rest, hit.1 ∈ row :: rest ∧
            (hit.2 = true ↔
              ∀ other ∈ done ++ row :: rest, other.key = hit.1.key → other.seq ≤ hit.1.seq) := by
        intro hit member
        have whole : done ++ row :: rest = (done ++ [row]) ++ rest := by simp
        rw [whole] at ordered ⊢
        have last : ((done ++ [row]).getLast?.map fun row => row.key) = some row.key := by simp
        rw [← last] at member
        obtain ⟨there, latest⟩ := ih ordered hit member
        exact ⟨List.mem_cons_of_mem _ there, latest⟩
      simp only at member
      split at member
      · exact later hit member
      · rcases List.mem_cons.mp member with rfl | member
        · refine ⟨List.mem_cons_self .., ?_⟩
          obtain ⟨orderedDone, orderedRest, before⟩ := List.pairwise_append.mp ordered
          obtain ⟨after, _⟩ := List.pairwise_cons.mp orderedRest
          simp only [bne_iff_ne]
          refine ⟨fun new other there same => ?_, fun newest same => ?_⟩
          · rcases List.mem_append.mp there with old | there
            · -- the row before this one would be of its key too
              exfalso
              have some : done ≠ [] := List.ne_nil_of_mem old
              obtain ⟨start, last, rfl⟩ : ∃ start last, done = start ++ [last] :=
                ⟨_, _, (List.dropLast_append_getLast some).symm⟩
              simp only [List.getLast?_append, List.getLast?_singleton, Option.some_or,
                Option.map_some, ne_eq, Option.some.injEq] at new
              have below : last.key ≤ row.key := by
                rcases before last (by simp) row (by simp) with less | ⟨same, _⟩
                · exact le_of_lt less
                · exact le_of_eq same
              have reaches : other.key ≤ last.key := by
                rcases List.mem_append.mp old with earlier | final
                · rcases (List.pairwise_append.mp orderedDone).2.2 other earlier last (by simp) with
                    less | ⟨same, _⟩
                  · exact le_of_lt less
                  · exact le_of_eq same
                · rw [List.mem_singleton.mp final]
              exact new (le_antisymm below (same ▸ reaches))
            · rcases List.mem_cons.mp there with rfl | there
              · exact le_refl _
              · rcases after other there with less | ⟨_, less⟩
                · exact absurd same.symm (ne_of_lt less)
                · exact le_of_lt less
          · obtain ⟨last, final, key⟩ := Option.map_eq_some_iff.mp same
            have there : last ∈ done := List.mem_of_getLast? final
            have highest := newest last (List.mem_append_left _ there) key
            rcases before last there row (by simp) with less | ⟨_, less⟩
            · exact absurd key (ne_of_lt less)
            · omega
        · exact later hit member

/-! ### One page -/

/-- The key markers of a request that resumes at the marker, from which rows are read. -/
def startOf (params : ListParams) (marker : Option Marker) : String :=
  max params.keyPrefix ((marker.map Marker.key).getD "")

/-- **What a page lists**, when the marker's version is still there or no older version of its key is
left: the first versions after the marker, the newest of each key as the latest. -/
theorem listVersions_page {store : Store} {bucket : String} {params : ListParams}
    {marker : Option Marker} (there : bucket ∈ store.buckets) (room : 0 < params.maxKeys)
    (plain : params.delim = none)
    (given : ∀ named, marker = some named → named.key.isEmpty = false ∧ named.versionId.isEmpty = false)
    (ordered : InOrder (versionRowsFrom store bucket (startOf params marker)))
    (resume : ∀ named, marker = some named →
      CanResume named (versionRowsFrom store bucket (startOf params marker))) :
    ∃ (hits : List (VersionRow × Bool)) (page : VersionPage),
      listVersions store bucket { params with after := marker.map Marker.key }
        (marker.map Marker.versionId) = .ok page ∧
      page.listed = (hits.map listedEntry).take params.maxKeys ∧
      page.truncated = decide (params.maxKeys < hits.length) ∧
      (page.truncated = true → page.nextKeyMarker =
        (hits.take params.maxKeys).getLast?.map (fun hit => hit.1.key) ∧
        page.nextVersionMarker =
          (hits.take params.maxKeys).getLast?.map fun hit => hit.1.versionId) ∧
      hits.map Prod.fst = (versionRowsFrom store bucket (startOf params marker)).filter (fun row =>
        startsWith row.key params.keyPrefix && beyond marker row) ∧
      ∀ hit ∈ hits, (hit.2 = true ↔
        ∀ other ∈ versionRowsFrom store bucket (startOf params marker),
          other.key = hit.1.key → other.seq ≤ hit.1.seq) := by
  have keyMarker : (marker.map Marker.key).filter (fun key => !key.isEmpty) =
      marker.map Marker.key := by
    cases marker with
    | none => rfl
    | some named => simp [(given named rfl).1]
  have versionMarker : (marker.map Marker.versionId).filter (fun version =>
      !version.isEmpty && (marker.map Marker.key).isSome) = marker.map Marker.versionId := by
    cases marker with
    | none => rfl
    | some named => simp [(given named rfl).2]
  have above : ∀ row ∈ versionRowsFrom store bucket (startOf params marker),
      params.keyPrefix ≤ row.key := by
    intro row member
    unfold versionRowsFrom at member
    rw [List.mem_insertionSort, List.mem_filter] at member
    exact le_trans (le_max_left _ _) (of_decide_eq_true member.2)
  have skips : Skips marker (marker.map Marker.versionId).isSome
      (versionRowsFrom store bucket (startOf params marker)) := by
    intro named same
    subst same
    exact resume named rfl
  -- the loop does not look at the marker among the parameters
  have rows := @scanRows_rows _ _ { params with after := marker.map Marker.key } marker _ none _
    ordered above skips
  have latest := @scanRows_latest _ _ { params with after := marker.map Marker.key } (marker.map Marker.key) (marker.map Marker.versionId)
    _ [] (marker.map Marker.versionId).isSome ordered
  refine ⟨scanRows { params with after := marker.map Marker.key } (marker.map Marker.key)
    (marker.map Marker.versionId) none (marker.map Marker.versionId).isSome (versionRowsFrom store bucket (startOf params marker)), _,
    ok_bind (rejectIf_pass (by simpa [bucketExists] using there)) (if_neg (by simpa using room.ne')),
    ?_, ?_, ?_, rows, fun hit member => (latest hit member).2⟩
  · simp only [keyMarker, versionMarker]
    exact congrArg Prod.fst (@listVersionRows_eq _ _ { params with after := marker.map Marker.key }
      plain _ _ _ none _ 0)
  · simp only [keyMarker, versionMarker]
    exact congrArg Prod.snd (@listVersionRows_eq _ _ { params with after := marker.map Marker.key }
      plain _ _ _ none _ 0)
  · simp only [keyMarker, versionMarker]
    intro cut
    have listed := congrArg Prod.fst (@listVersionRows_eq _ _
      { params with after := marker.map Marker.key } plain (marker.map Marker.key)
      (marker.map Marker.versionId) (versionRowsFrom store bucket (startOf params marker)) none
      (marker.map Marker.versionId).isSome 0)
    unfold startOf at listed ⊢
    rw [if_pos cut, listed, Nat.sub_zero, ← List.map_take, List.getLast?_map]
    cases (List.take _ _).getLast? with
    | none => exact ⟨rfl, rfl⟩
    | some hit => exact ⟨rfl, rfl⟩

/-! ### The rows of a bucket -/

/-- No two versions of a key have one sequence number. -/
def VersionsOnce (store : Store) (bucket : String) : Prop :=
  ((bucketVersions store bucket).map fun row => (row.key, row.seq)).Nodup

theorem mem_versionRowsFrom {store : Store} {bucket start : String} {row : VersionRow} :
    row ∈ versionRowsFrom store bucket start ↔
      row ∈ bucketVersions store bucket ∧ start ≤ row.key := by
  unfold versionRowsFrom
  rw [List.mem_insertionSort, List.mem_filter, decide_eq_true_iff]

theorem inOrder_versionRowsFrom {store : Store} {bucket : String}
    (once : VersionsOnce store bucket) (start : String) :
    InOrder (versionRowsFrom store bucket start) := by
  have : IsTrans VersionRow versionOrder := by
    refine ⟨fun first second third => ?_⟩
    rintro (less | ⟨same, seq⟩) (more | ⟨equal, later⟩)
    · exact Or.inl (less.trans more)
    · exact Or.inl (equal ▸ less)
    · exact Or.inl (same ▸ more)
    · exact Or.inr ⟨same.trans equal, le_trans later seq⟩
  have : Std.Total versionOrder := by
    refine ⟨fun first second => ?_⟩
    rcases lt_trichotomy first.key second.key with less | same | more
    · exact Or.inl (Or.inl less)
    · rcases le_total second.seq first.seq with newer | older
      · exact Or.inl (Or.inr ⟨same, newer⟩)
      · exact Or.inr (Or.inr ⟨same.symm, older⟩)
    · exact Or.inr (Or.inl more)
  have sorted := List.pairwise_insertionSort versionOrder
    ((bucketVersions store bucket).filter fun row => decide (start ≤ row.key))
  have distinct : ((versionRowsFrom store bucket start).map fun row => (row.key, row.seq)).Nodup := by
    refine ((List.perm_insertionSort versionOrder _).map _).nodup_iff.mpr ?_
    exact List.Nodup.sublist (List.filter_sublist.map _) once
  refine sorted.imp₂ (fun first second order different => ?_) (List.pairwise_map.mp distinct)
  rcases order with less | ⟨same, seq⟩
  · exact Or.inl less
  · exact Or.inr ⟨same, lt_of_le_of_ne seq fun equal => different (Prod.ext same equal.symm)⟩

theorem order_asymm {one other : VersionRow} (before : one.key < other.key ∨
    (one.key = other.key ∧ other.seq < one.seq)) :
    ¬ (other.key < one.key ∨ (other.key = one.key ∧ one.seq < other.seq)) := by
  rcases before with less | ⟨equal, less⟩
  · rintro (more | ⟨equalToo, more⟩)
    · exact lt_irrefl _ (less.trans more)
    · exact absurd equalToo.symm (ne_of_lt less)
  · rintro (more | ⟨equalToo, more⟩)
    · exact absurd equal.symm (ne_of_lt more)
    · omega

/-- Two lists in order with the same members are the same. -/
theorem inOrder_unique {first second : List VersionRow} (orderedFirst : InOrder first)
    (orderedSecond : InOrder second) (same : ∀ row, row ∈ first ↔ row ∈ second) :
    first = second := by
  have apart : ∀ {one other : VersionRow}, (one.key < other.key ∨
      (one.key = other.key ∧ other.seq < one.seq)) → ¬ (other.key < one.key ∨
      (other.key = one.key ∧ one.seq < other.seq)) := order_asymm
  have distinct : ∀ {list : List VersionRow}, InOrder list → list.Nodup := by
    intro list ordered
    refine List.Pairwise.imp (fun less equal => ?_) ordered
    subst equal
    exact apart less less
  have perm := (List.perm_ext_iff_of_nodup (distinct orderedFirst) (distinct orderedSecond)).mpr same
  exact perm.eq_of_pairwise (fun _ _ _ _ less more => absurd more (apart less)) orderedFirst
    orderedSecond

/-- **The versions with the prefix that come after the marker**, in order. -/
def remaining (store : Store) (bucket : String) (params : ListParams) (marker : Option Marker) :
    List VersionRow :=
  (versionRowsFrom store bucket "").filter fun row =>
    startsWith row.key params.keyPrefix && beyond marker row

theorem nil_le (text : String) : "" ≤ text :=
  String.le_iff_toList_le.mpr (nil_le_text _)

theorem mem_remaining {store : Store} {bucket : String} {params : ListParams}
    {marker : Option Marker} {row : VersionRow} :
    row ∈ remaining store bucket params marker ↔ row ∈ bucketVersions store bucket ∧
      startsWith row.key params.keyPrefix = true ∧ beyond marker row = true := by
  unfold remaining
  rw [List.mem_filter, mem_versionRowsFrom, Bool.and_eq_true]
  exact ⟨fun ⟨⟨there, _⟩, rest⟩ => ⟨there, rest⟩, fun ⟨there, rest⟩ => ⟨⟨there, nil_le _⟩, rest⟩⟩

theorem inOrder_remaining {store : Store} {bucket : String} (params : ListParams)
    (marker : Option Marker) (once : VersionsOnce store bucket) :
    InOrder (remaining store bucket params marker) :=
  (inOrder_versionRowsFrom once "").filter _

theorem start_le {params : ListParams} {marker : Option Marker} {row : VersionRow}
    (starts : startsWith row.key params.keyPrefix = true) (after : beyond marker row = true) :
    startOf params marker ≤ row.key := by
  refine max_le (startsWith_le starts) ?_
  cases marker with
  | none => exact nil_le _
  | some named =>
    rcases beyond_iff.mp after with less | ⟨same, _⟩
    · exact le_of_lt less
    · exact le_of_eq same

theorem page_rows {store : Store} {bucket : String} {params : ListParams} {marker : Option Marker}
    (once : VersionsOnce store bucket) :
    ((versionRowsFrom store bucket (startOf params marker)).filter fun row =>
      startsWith row.key params.keyPrefix && beyond marker row) =
      remaining store bucket params marker := by
  refine inOrder_unique ((inOrder_versionRowsFrom once _).filter _) (inOrder_remaining _ _ once)
    fun row => ?_
  rw [List.mem_filter, mem_versionRowsFrom, mem_remaining, Bool.and_eq_true]
  exact ⟨fun ⟨⟨there, _⟩, starts, after⟩ => ⟨there, starts, after⟩,
    fun ⟨there, starts, after⟩ => ⟨⟨there, start_le starts after⟩, starts, after⟩⟩

/-- **One page of the versions.** If the version that the marker names is still there, or no older
version of its key is left, the page holds the first of the versions after the marker, and those that
are the newest of their key are the latest. -/
theorem list_versions_resumes {store : Store} {bucket : String} {params : ListParams}
    {marker : Option Marker} (there : bucket ∈ store.buckets) (room : 0 < params.maxKeys)
    (plain : params.delim = none) (once : VersionsOnce store bucket)
    (given : ∀ named, marker = some named → named.key.isEmpty = false ∧ named.versionId.isEmpty = false)
    (resume : ∀ named, marker = some named → CanResume named (bucketVersions store bucket)) :
    ∃ (hits : List (VersionRow × Bool)) (page : VersionPage),
      listVersions store bucket { params with after := marker.map Marker.key }
        (marker.map Marker.versionId) = .ok page ∧
      page.listed = (hits.map listedEntry).take params.maxKeys ∧
      page.truncated = decide (params.maxKeys < hits.length) ∧
      (page.truncated = true → page.nextKeyMarker =
        (hits.take params.maxKeys).getLast?.map (fun hit => hit.1.key) ∧
        page.nextVersionMarker =
          (hits.take params.maxKeys).getLast?.map fun hit => hit.1.versionId) ∧
      hits.map Prod.fst = remaining store bucket params marker ∧
      ∀ hit ∈ hits, (hit.2 = true ↔ ∀ other ∈ bucketVersions store bucket,
        other.key = hit.1.key → other.seq ≤ hit.1.seq) := by
  have resumes : ∀ named, marker = some named →
      CanResume named (versionRowsFrom store bucket (startOf params marker)) := by
    intro named same
    obtain ⟨ids, kept⟩ := resume named same
    refine ⟨fun row member => ids row (mem_versionRowsFrom.mp member).1,
      fun row member key older => ?_⟩
    obtain ⟨stored, reached⟩ := mem_versionRowsFrom.mp member
    obtain ⟨found, inBucket, sameKey, id⟩ := kept row stored key older
    refine ⟨found, mem_versionRowsFrom.mpr ⟨inBucket, ?_⟩, sameKey, id⟩
    rwa [sameKey, ← key]
  obtain ⟨hits, page, listed, entries, cut, markers, rows, latest⟩ :=
    listVersions_page there room plain given (inOrder_versionRowsFrom once _) resumes
  rw [page_rows once] at rows
  refine ⟨hits, page, listed, entries, cut, markers, rows,
    fun hit member => (latest hit member).trans ?_⟩
  have inRest : hit.1 ∈ remaining store bucket params marker := by
    rw [← rows]
    exact List.mem_map_of_mem member
  obtain ⟨_, starts, after⟩ := mem_remaining.mp inRest
  refine ⟨fun newest other inBucket key => newest other ?_ key, fun newest other inRows key =>
    newest other (mem_versionRowsFrom.mp inRows).1 key⟩
  exact mem_versionRowsFrom.mpr ⟨inBucket, key ▸ start_le starts after⟩

/-! ### A listing that is consumed -/

/-- The key and the version id of a row. -/
def pairOf (row : VersionRow) : String × String :=
  (row.key, row.versionId)

/-- What the tables' keys and the order of the writes say of the versions of a bucket. -/
structure Tables (store : Store) (bucket : String) : Prop where
  there : bucket ∈ store.buckets
  stacked : ∀ key, StackedAt store bucket key
  keyed : ∀ row ∈ bucketVersions store bucket, row.key.isEmpty = false

theorem mem_bucketVersions {store : Store} {bucket : String} {row : VersionRow} :
    row ∈ bucketVersions store bucket ↔
      row.bucket = bucket ∧ row ∈ (shelfOf store bucket row.key).rows := by
  unfold bucketVersions
  rw [mem_rows, List.mem_append, List.mem_map, List.mem_filter, beq_iff_eq]
  refine ⟨?_, ?_⟩
  · rintro (⟨current, member, rfl⟩ | ⟨member, here⟩)
    · obtain ⟨stored, here⟩ := List.mem_filter.mp member
      have own := beq_iff_eq.mp here
      exact ⟨own, Or.inr ⟨current, List.mem_filter.mpr ⟨stored, isFor_iff.mpr ⟨own, rfl⟩⟩, rfl⟩⟩
    · exact ⟨here, Or.inl (List.mem_filter.mpr ⟨member, isFor_iff.mpr ⟨here, rfl⟩⟩)⟩
  · rintro ⟨here, member | ⟨current, member, same⟩⟩
    · exact Or.inr ⟨(List.mem_filter.mp member).1, here⟩
    · obtain ⟨stored, own⟩ := List.mem_filter.mp member
      exact Or.inl ⟨current, List.mem_filter.mpr ⟨stored, beq_iff_eq.mpr (isFor_iff.mp own).1⟩, same⟩

theorem bucketVersions_key (store : Store) (bucket key : String) :
    ((bucketVersions store bucket).filter fun row => row.key == key).Perm
      (shelfOf store bucket key).rows := by
  unfold bucketVersions
  rw [List.filter_append, List.filter_map, List.filter_filter, List.filter_filter]
  refine List.perm_append_comm.trans (List.Perm.of_eq (congrArg₂ (· ++ ·) ?_ (congrArg _ ?_)))
  all_goals
    refine List.filter_congr fun row _ => ?_
    exact Bool.and_comm _ _

/-- What is distinct under every key is distinct together with the key. -/
theorem nodup_of_keys {α : Type} {rows : List VersionRow} {field : VersionRow → α}
    (each : ∀ key, ((rows.filter fun row => row.key == key).map field).Nodup) :
    (rows.map fun row => (row.key, field row)).Nodup := by
  induction rows with
  | nil => exact List.nodup_nil
  | cons row rest ih =>
    have later : ∀ key, ((rest.filter fun row => row.key == key).map field).Nodup := fun key =>
      (each key).sublist (((List.sublist_cons_self row rest).filter _).map _)
    refine List.nodup_cons.mpr ⟨fun again => ?_, ih later⟩
    obtain ⟨other, member, same⟩ := List.mem_map.mp again
    obtain ⟨key, value⟩ := Prod.mk.inj same
    have own := each row.key
    rw [List.filter_cons, if_pos (beq_self_eq_true _), List.map_cons, List.nodup_cons] at own
    exact own.1 (List.mem_map.mpr ⟨other, List.mem_filter.mpr ⟨member, beq_iff_eq.mpr key⟩, value⟩)

namespace Tables

variable {store : Store} {bucket : String}

theorem once (tables : Tables store bucket) : VersionsOnce store bucket :=
  nodup_of_keys fun key =>
    ((bucketVersions_key store bucket key).map _).nodup_iff.mpr (tables.stacked key).distinct.seqs

theorem ids (tables : Tables store bucket) : ((bucketVersions store bucket).map pairOf).Nodup :=
  nodup_of_keys fun key =>
    ((bucketVersions_key store bucket key).map _).nodup_iff.mpr (tables.stacked key).distinct.ids

theorem named (tables : Tables store bucket)
    (laws : ∀ draw, (S3External.newVersionId draw).isEmpty = false) {row : VersionRow}
    (member : row ∈ bucketVersions store bucket) :
    row.key.isEmpty = false ∧ row.versionId.isEmpty = false := by
  refine ⟨tables.keyed row member, ?_⟩
  rcases (tables.stacked row.key).distinct.drawn row (mem_bucketVersions.mp member).2 with
    null | ⟨draw, _, drawn⟩
  · rw [null]
    decide
  · rw [drawn]
    exact laws draw

end Tables

/-! ### Deletions between the pages -/

/-- **What the deletion of a version leaves of its key.** -/
theorem rows_deleteVersion {store : Store} {bucket key versionId : String} {versioning : Versioning}
    (stacked : StackedAt store bucket key) :
    (shelfOf (deleteVersion store bucket key versionId versioning).2 bucket key).rows.Perm
      ((shelfOf store bucket key).rows.filter fun row => row.versionId != versionId) := by
  have shelved := stacked.toShelved
  have info := currentInfo_eq store bucket key
  have ids := shelved.distinct.ids
  have restores : ∀ removed : Store,
      Shelved (shelfOf removed bucket key) store.seq store.drawn (configured store bucket) →
      (shelfOf removed bucket key).rows = ((shelfOf store bucket key).rows.filter fun row =>
        row.versionId != versionId) →
      (shelfOf (nextSeq (restoreLatest removed bucket key)) bucket key).rows.Perm
        ((shelfOf store bucket key).rows.filter fun row => row.versionId != versionId) := by
    intro removed shelvedToo rows
    exact (stacked_restoreLatest shelvedToo).2.trans (List.Perm.of_eq rows)
  unfold deleteVersion
  simp only
  by_cases isCurrent : ((currentInfo store bucket key).any fun info =>
      info.versionId == versionId) = true
  · rw [if_pos isCurrent]
    have shelf := shelf_dropCurrent store bucket key
    refine restores _ ?_ ?_
    · rw [shelf]
      exact shelved.of_sublist (List.Sublist.refl _) (List.nil_sublist _)
    · rw [shelf]
      rcases shelved.current_cases with empty | ⟨only, single⟩
      · rw [info, empty] at isCurrent
        cases isCurrent
      · rw [info, single] at isCurrent
        have own : only.versionId = versionId := beq_iff_eq.mp isCurrent
        rw [Shelf.rows, single, List.map_append, List.nodup_append] at ids
        simp only [Shelf.rows, single, List.map_nil, List.append_nil, List.map_cons,
          List.filter_append]
        rw [List.filter_eq_self.mpr fun row member => bne_iff_ne.mpr fun same =>
            ids.2.2 _ (List.mem_map_of_mem member) only.versionId (by simp [live])
              (same.trans own.symm),
          List.filter_eq_nil_iff.mpr fun row member => ?_, List.append_nil]
        rw [List.mem_singleton.mp member]
        simp [live, own]
  · rw [if_neg isCurrent]
    have other : ∀ row ∈ (shelfOf store bucket key).current.map live,
        (row.versionId != versionId) = true := by
      intro row member
      obtain ⟨current, there, rfl⟩ := List.mem_map.mp member
      rcases shelved.current_cases with empty | ⟨only, single⟩
      · rw [empty] at there
        cases there
      · rw [single] at there
        rw [info, single] at isCurrent
        rw [List.mem_singleton.mp there]
        exact bne_iff_ne.mpr fun same => isCurrent (beq_iff_eq.mpr same)
    have split : ((shelfOf store bucket key).rows.filter fun row => row.versionId != versionId) =
        ((shelfOf store bucket key).archived.filter fun row => row.versionId != versionId) ++
          (shelfOf store bucket key).current.map live := by
      rw [Shelf.rows, List.filter_append, List.filter_eq_self.mpr other]
    by_cases archived : (archivedInfo store bucket key versionId).isSome = true
    · rw [if_pos archived]
      have shelf := shelf_dropVersion store bucket key versionId
      refine restores _ ?_ ?_
      · rw [shelf]
        exact shelved.of_sublist List.filter_sublist (List.Sublist.refl _)
      · rw [shelf, split]
        rfl
    · rw [if_neg archived, split]
      refine List.Perm.of_eq (congrArg (· ++ _) (List.filter_eq_self.mpr fun row member => ?_).symm)
      refine bne_iff_ne.mpr fun same => archived ?_
      obtain ⟨stored, own⟩ := List.mem_filter.mp member
      unfold archivedInfo
      rw [Option.isSome_map, List.find?_isSome]
      exact ⟨row, stored, isVersion_iff.mpr ⟨isFor_iff.mp own, same⟩⟩

/-- **The client deletes versions**, one request after the other. -/
inductive Deletions (bucket : String) : Store → List (String × String) → Store → Prop
  | none (store : Store) : Deletions bucket store [] store
  | delete {store middle later : Store} {key versionId : String} {now : Int}
      {outcome : DeleteOutcome} {removed : List (String × String)}
      (deleted : deleteObject store bucket key (some versionId) now = .ok (outcome, middle))
      (rest : Deletions bucket middle removed later) :
      Deletions bucket store ((key, versionId) :: removed) later

theorem tables_deleteObject {store after : Store} {bucket key versionId : String} {now : Int}
    {outcome : DeleteOutcome} (laws : VersionIdLaws ‹S3External›)
    (deleted : deleteObject store bucket key (some versionId) now = .ok (outcome, after))
    (tables : Tables store bucket) :
    Tables after bucket ∧ ∀ row, row ∈ bucketVersions after bucket ↔
      row ∈ bucketVersions store bucket ∧ pairOf row ≠ (key, versionId) := by
  have elsewhere := elsewhere_deleteObject deleted
  have left : ∀ row, row ∈ bucketVersions after bucket ↔
      row ∈ bucketVersions store bucket ∧ pairOf row ≠ (key, versionId) := by
    intro row
    rw [mem_bucketVersions, mem_bucketVersions, and_assoc]
    refine and_congr_right fun _ => ?_
    by_cases own : row.key = key
    · obtain ⟨versioning, _, rest⟩ := bind_ok deleted
      have same : (deleteVersion store bucket key versionId versioning).2 = after :=
        congrArg Prod.snd (Except.ok.inj rest)
      rw [own, ← same, (rows_deleteVersion (tables.stacked key)).mem_iff, List.mem_filter]
      refine and_congr_right fun _ => ?_
      rw [bne_iff_ne, pairOf, own]
      simp
    · rw [elsewhere.confined bucket row.key fun same => own same.2]
      exact (and_iff_left fun same => own (Prod.mk.inj same).1).symm
  refine ⟨⟨?_, fun other => ?_, fun row member => tables.keyed row ((left row).mp member).1⟩, left⟩
  · rw [(moves_deleteObject deleted).2.buckets]
    exact tables.there
  · by_cases own : other = key
    · rw [own]
      exact (advance_deleteObject laws deleted (tables.stacked key)).stacked
    · have advance : Advance (.deleteObject bucket key (some versionId)) bucket other store after :=
        elsewhere.advance (tables.stacked other) fun same => own same.2
      exact advance.stacked

/-- **What the deletions leave.** -/
theorem tables_deletions {store later : Store} {bucket : String} {removed : List (String × String)}
    (laws : VersionIdLaws ‹S3External›) (deletions : Deletions bucket store removed later) :
    Tables store bucket → Tables later bucket ∧ ∀ row, row ∈ bucketVersions later bucket ↔
      row ∈ bucketVersions store bucket ∧ pairOf row ∉ removed := by
  induction deletions with
  | none => exact fun tables => ⟨tables, fun row => by simp⟩
  | delete deleted _ ih =>
    intro tables
    obtain ⟨tablesMiddle, leftMiddle⟩ := tables_deleteObject laws deleted tables
    obtain ⟨tablesLater, left⟩ := ih tablesMiddle
    refine ⟨tablesLater, fun row => ?_⟩
    rw [left, leftMiddle, List.mem_cons, not_or, and_assoc]

/-- The marker of a row. -/
def markerOf (row : VersionRow) : Marker where
  key := row.key
  versionId := row.versionId
  seq := row.seq

/-- **The client takes a page, deletes versions that it was given, and goes on**; `fits` is asked of
the version that the markers name and of the store in which it goes on. -/
inductive Session (bucket : String) (params : ListParams) (fits : VersionRow → Store → Prop) :
    Store → Option Marker → List (String × String) → List (Store × VersionPage) → Prop
  | last {store : Store} {marker : Option Marker} {seen : List (String × String)}
      {page : VersionPage}
      (listed : listVersions store bucket { params with after := marker.map Marker.key }
        (marker.map Marker.versionId) = .ok page)
      (whole : page.truncated = false) : Session bucket params fits store marker seen [(store, page)]
  | next {store later : Store} {marker : Option Marker} {seen removed : List (String × String)}
      {page : VersionPage} {pages : List (Store × VersionPage)} {named : VersionRow}
      (listed : listVersions store bucket { params with after := marker.map Marker.key }
        (marker.map Marker.versionId) = .ok page)
      (cut : page.truncated = true) (stored : named ∈ bucketVersions store bucket)
      (keyMarker : page.nextKeyMarker = some named.key)
      (versionMarker : page.nextVersionMarker = some named.versionId)
      (own : ∀ pair ∈ removed, pair ∈ seen ++ page.versions)
      (deletions : Deletions bucket store removed later) (resume : fits named later)
      (rest : Session bucket params fits later (some (markerOf named)) (seen ++ page.versions) pages) :
      Session bucket params fits store marker seen ((store, page) :: pages)

/-- **The version is still there, or no older version of its key is left.** -/
def StillResumes (bucket : String) (named : VersionRow) (store : Store) : Prop :=
  named ∈ bucketVersions store bucket ∨
    ∀ row ∈ bucketVersions store bucket, row.key = named.key → ¬ row.seq < named.seq

theorem beyond_trans {marker : Option Marker} {named row : VersionRow}
    (first : beyond marker named = true) (second : beyond (some (markerOf named)) row = true) :
    beyond marker row = true := by
  cases marker with
  | none => rfl
  | some marker =>
    rw [beyond_iff] at first second ⊢
    rcases first with less | ⟨same, seq⟩
    · rcases second with more | ⟨equal, _⟩
      · exact Or.inl (less.trans more)
      · exact Or.inl (lt_of_lt_of_eq less equal)
    · rcases second with more | ⟨equal, later⟩
      · exact Or.inl (lt_of_eq_of_lt same more)
      · exact Or.inr ⟨same.trans equal, later.trans seq⟩

theorem versions_eq {page : VersionPage} {hits : List (VersionRow × Bool)} {limit : Nat}
    (listed : page.listed = (hits.map listedEntry).take limit) :
    page.versions = ((hits.map Prod.fst).take limit).map pairOf := by
  unfold VersionPage.versions
  rw [listed, ← List.map_take, ← List.map_take, List.filterMap_map, List.map_map]
  exact congrFun (List.filterMap_eq_map (f := pairOf ∘ Prod.fst)) _

/-- **The latest entries of a page** are the versions that are the newest of their key. -/
def LatestOf (store : Store) (bucket : String) (page : VersionPage) : Prop :=
  ∀ entry, VersionListed.entry entry ∈ page.listed → ∀ row ∈ bucketVersions store bucket,
    pairOf row = (entry.key, entry.versionId) →
    (entry.isLatest = true ↔
      ∀ other ∈ bucketVersions store bucket, other.key = row.key → other.seq ≤ row.seq)

theorem latestOf {store : Store} {bucket : String} {page : VersionPage} {limit : Nat}
    {hits : List (VersionRow × Bool)} (tables : Tables store bucket)
    (listed : page.listed = (hits.map listedEntry).take limit)
    (stored : ∀ row ∈ hits.map Prod.fst, row ∈ bucketVersions store bucket)
    (latest : ∀ hit ∈ hits, (hit.2 = true ↔ ∀ other ∈ bucketVersions store bucket,
      other.key = hit.1.key → other.seq ≤ hit.1.seq)) : LatestOf store bucket page := by
  intro entry member row there same
  rw [listed] at member
  obtain ⟨hit, found, pushed⟩ := List.mem_map.mp (List.mem_of_mem_take member)
  cases pushed
  have own : row = hit.1 :=
    List.inj_on_of_nodup_map tables.ids there (stored _ (List.mem_map_of_mem found)) same
  rw [own]
  exact latest hit found

/-! What a page leaves, when its last version is named by the markers. -/

section Behind

variable {before rest : List VersionRow} {named : VersionRow}

theorem InOrder.not_beyond_page (ordered : InOrder (before ++ named :: rest)) :
    ∀ found ∈ before ++ [named], ¬ beyond (some (markerOf named)) found = true := by
  intro found member
  rw [beyond_iff]
  rcases List.mem_append.mp member with old | own
  · exact order_asymm ((List.pairwise_append.mp ordered).2.2 found old named List.mem_cons_self)
  · rw [List.mem_singleton.mp own]
    rintro (less | ⟨_, less⟩)
    · exact lt_irrefl _ less
    · exact lt_irrefl _ less

theorem InOrder.beyond_page (ordered : InOrder (before ++ named :: rest)) :
    ∀ found ∈ rest, beyond (some (markerOf named)) found = true := fun found member =>
  beyond_iff.mpr
    ((List.pairwise_cons.mp (List.pairwise_append.mp ordered).2.1).1 found member)

variable {store : Store} {bucket : String} {params : ListParams} {marker : Option Marker}

theorem Tables.unique (tables : Tables store bucket) :
    ∀ first ∈ bucketVersions store bucket, ∀ second ∈ bucketVersions store bucket,
      pairOf first = pairOf second → first = second := fun _ there _ thereToo =>
  List.inj_on_of_nodup_map tables.ids there thereToo

/-- **The last version of a page that is cut** is the one that the markers name. -/
theorem page_ends {hits : List (VersionRow × Bool)} (tables : Tables store bucket)
    (rows : hits.map Prod.fst = remaining store bucket params marker) (room : 0 < params.maxKeys)
    (more : params.maxKeys < hits.length) (stored : named ∈ bucketVersions store bucket)
    (last : ∀ hit, (hits.take params.maxKeys).getLast? = some hit → pairOf hit.1 = pairOf named) :
    ∃ before, (remaining store bucket params marker).take params.maxKeys = before ++ [named] ∧
      remaining store bucket params marker =
        before ++ named :: (remaining store bucket params marker).drop params.maxKeys := by
  have nonempty : (remaining store bucket params marker).take params.maxKeys ≠ [] := by
    have length := congrArg List.length rows
    rw [List.length_map] at length
    rw [Ne, List.take_eq_nil_iff, not_or]
    exact ⟨by omega, fun none => by rw [none, List.length_nil] at length; omega⟩
  obtain ⟨before, row, page⟩ : ∃ before row,
      (remaining store bucket params marker).take params.maxKeys = before ++ [row] :=
    ⟨_, _, (List.dropLast_append_getLast nonempty).symm⟩
  have split : remaining store bucket params marker =
      before ++ row :: (remaining store bucket params marker).drop params.maxKeys := by
    conv_lhs => rw [← List.take_append_drop params.maxKeys
      (remaining store bucket params marker), page]
    simp
  have listed : row ∈ remaining store bucket params marker := by
    rw [split]
    simp
  have isNamed : row = named := by
    refine tables.unique row (mem_remaining.mp listed).1 named stored ?_
    have final : (hits.take params.maxKeys).getLast?.map (fun hit => hit.1) = some row := by
      rw [← List.getLast?_map, List.map_take, rows, page]
      simp
    obtain ⟨hit, there, first⟩ := Option.map_eq_some_iff.mp final
    rw [← first]
    exact last hit there
  subst isNamed
  exact ⟨before, page, split⟩

/-- What the client was given so far does not come after the marker. -/
theorem seen_past {seen : List (String × String)} (tables : Tables store bucket)
    (split : remaining store bucket params marker = before ++ named :: rest)
    (past : ∀ row ∈ bucketVersions store bucket, pairOf row ∈ seen → ¬ beyond marker row = true) :
    ∀ found ∈ bucketVersions store bucket, pairOf found ∈ seen ++ (before ++ [named]).map pairOf →
      ¬ beyond (some (markerOf named)) found = true := by
  have ordered := inOrder_remaining params marker tables.once
  have inRest : ∀ found ∈ remaining store bucket params marker,
      found ∈ bucketVersions store bucket ∧ beyond marker found = true := fun found member =>
    ⟨(mem_remaining.mp member).1, (mem_remaining.mp member).2.2⟩
  rw [split] at ordered inRest
  intro found there given beyondRow
  rcases List.mem_append.mp given with old | new
  · exact past found there old (beyond_trans (inRest named (by simp)).2 beyondRow)
  · obtain ⟨twin, member, same⟩ := List.mem_map.mp new
    have inAll : twin ∈ before ++ named :: rest := by
      rcases List.mem_append.mp member with old | last
      · exact List.mem_append_left _ old
      · rw [List.mem_singleton.mp last]
        simp
    have equal := tables.unique twin (inRest twin inAll).1 found there same
    exact ordered.not_beyond_page twin member (equal ▸ beyondRow)

/-- **The rest is what remains behind the marker**, after deletions of what the client was given. -/
theorem remaining_next {later : Store} {removed : List (String × String)}
    (tables : Tables store bucket) (tablesLater : Tables later bucket)
    (left : ∀ row, row ∈ bucketVersions later bucket ↔
      row ∈ bucketVersions store bucket ∧ pairOf row ∉ removed)
    (split : remaining store bucket params marker = before ++ named :: rest)
    (gone : ∀ found ∈ bucketVersions store bucket, pairOf found ∈ removed →
      ¬ beyond (some (markerOf named)) found = true) :
    remaining later bucket params (some (markerOf named)) = rest := by
  have ordered := inOrder_remaining params marker tables.once
  have inRest : ∀ found, found ∈ remaining store bucket params marker ↔
      found ∈ bucketVersions store bucket ∧ startsWith found.key params.keyPrefix = true ∧
        beyond marker found = true := fun found => mem_remaining
  rw [split] at ordered inRest
  have orderedRest : InOrder rest :=
    (List.pairwise_cons.mp (List.pairwise_append.mp ordered).2.1).2
  refine inOrder_unique (inOrder_remaining _ _ tablesLater.once) orderedRest fun found => ?_
  rw [mem_remaining, left]
  refine ⟨fun ⟨⟨there, _⟩, starts, beyondRow⟩ => ?_, fun member => ?_⟩
  · have fromMarker := ((inRest named).mp (by simp)).2.2
    have all := (inRest found).mpr ⟨there, starts, beyond_trans fromMarker beyondRow⟩
    rcases List.mem_append.mp all with old | own
    · exact absurd beyondRow (ordered.not_beyond_page found (List.mem_append_left _ old))
    · rcases List.mem_cons.mp own with rfl | rest
      · exact absurd beyondRow (ordered.not_beyond_page found (by simp))
      · exact rest
  · have beyondRow := ordered.beyond_page found member
    obtain ⟨there, starts, _⟩ := (inRest found).mp (by simp [member])
    exact ⟨⟨there, fun removed => gone found there removed beyondRow⟩, starts, beyondRow⟩

end Behind

/-- **A listing that can always resume lists every version once**, in order. -/
theorem session_lists {bucket : String} {params : ListParams} {store : Store}
    {marker : Option Marker} {seen : List (String × String)} {pages : List (Store × VersionPage)}
    (session : Session bucket params (StillResumes bucket) store marker seen pages)
    (laws : VersionIdLaws ‹S3External›)
    (drawn : ∀ draw, (S3External.newVersionId draw).isEmpty = false) (room : 0 < params.maxKeys)
    (plain : params.delim = none) :
    Tables store bucket →
    (∀ named, marker = some named → named.key.isEmpty = false ∧ named.versionId.isEmpty = false) →
    (∀ named, marker = some named → CanResume named (bucketVersions store bucket)) →
    (∀ row ∈ bucketVersions store bucket, pairOf row ∈ seen → ¬ beyond marker row = true) →
    pages.flatMap (fun pair => pair.2.versions) =
        (remaining store bucket params marker).map pairOf ∧
      ∀ pair ∈ pages, LatestOf pair.1 bucket pair.2 := by
  induction session with
  | @last store marker seen page listed whole =>
    intro tables given resume past
    obtain ⟨hits, other, same, entries, cut, _, rows, latest⟩ :=
      list_versions_resumes tables.there room plain tables.once given resume
    rw [listed] at same
    cases same
    rw [whole] at cut
    refine ⟨?_, fun pair member => ?_⟩
    rotate_left
    · rw [List.mem_singleton.mp member]
      exact latestOf tables entries (fun row member => (mem_remaining.mp (rows ▸ member)).1) latest
    have few : hits.length ≤ params.maxKeys := not_lt.mp (of_decide_eq_false cut.symm)
    rw [List.flatMap_cons, List.flatMap_nil, List.append_nil, versions_eq entries, rows,
      List.take_of_length_le (by rw [← rows, List.length_map]; exact few)]
  | @next store later marker seen removed page pages named listed cut stored keyMarker versionMarker
      own deletions resumes rest ih =>
    intro tables given resume past
    obtain ⟨tablesLater, left⟩ := tables_deletions laws deletions tables
    obtain ⟨hits, other, same, entries, truncated, markers, rows, latest⟩ :=
      list_versions_resumes tables.there room plain tables.once given resume
    rw [listed] at same
    cases same
    rw [cut] at truncated
    have marks : LatestOf store bucket page :=
      latestOf tables entries (fun row member => (mem_remaining.mp (rows ▸ member)).1) latest
    -- the last version of the page is the one that the markers name
    have last : ∀ hit, (hits.take params.maxKeys).getLast? = some hit →
        pairOf hit.1 = pairOf named := by
      intro hit final
      obtain ⟨keys, ids⟩ := markers cut
      rw [final, keyMarker] at keys
      rw [final, versionMarker] at ids
      exact Prod.ext (Option.some.inj keys).symm (Option.some.inj ids).symm
    obtain ⟨before, page', split⟩ :=
      page_ends tables rows room (of_decide_eq_true truncated.symm) stored last
    have versions := versions_eq entries
    rw [rows] at versions
    have seenPast := seen_past tables split past
    rw [← page', ← versions] at seenPast
    have next := remaining_next tables tablesLater left split
      fun found there removed => seenPast found there (own _ removed)
    obtain ⟨all, marksLater⟩ := ih tablesLater
      (fun marker' same => by cases same; exact tables.named drawn stored)
      (fun marker' same => by
        cases same
        refine ⟨fun found member key id => ?_, fun found member key older => ?_⟩
        · rw [tables.unique found ((left found).mp member).1 named stored (Prod.ext key id)]
          rfl
        · rcases resumes with there | none
          · exact ⟨named, there, rfl, rfl⟩
          · exact absurd older (none found member key))
      fun found member given' => seenPast found ((left found).mp member).1 given'
    refine ⟨?_, List.forall_mem_cons.mpr ⟨marks, marksLater⟩⟩
    rw [List.flatMap_cons, all, next, versions, ← List.map_append, List.take_append_drop]

/-- **A bucket is listed while it is emptied.** In whatever state the service is, if the client takes
pages and deletes versions that it was given, and always goes on with a marker whose version is still
there or has no older version of its key left, then every version with the prefix is listed once, in
order, and the latest entries of every page are the newest versions of their keys. -/
theorem versions_consumed {history : List S3Event} {store : Store} {bucket : String}
    {params : ListParams} {pages : List (Store × VersionPage)} (laws : VersionIdLaws ‹S3External›)
    (drawn : ∀ draw, (S3External.newVersionId draw).isEmpty = false) (run : S3Run history store)
    (configures : ∀ event ∈ history, event.input.call.Configures) (there : bucket ∈ store.buckets)
    (keyed : ∀ row ∈ bucketVersions store bucket, row.key.isEmpty = false)
    (room : 0 < params.maxKeys) (plain : params.delim = none)
    (session : Session bucket params (StillResumes bucket) store none [] pages) :
    ∃ rows : List VersionRow,
      (∀ row, row ∈ rows ↔
        row ∈ bucketVersions store bucket ∧ startsWith row.key params.keyPrefix = true) ∧
      InOrder rows ∧ (rows.map pairOf).Nodup ∧
      pages.flatMap (fun pair => pair.2.versions) = rows.map pairOf ∧
      ∀ pair ∈ pages, LatestOf pair.1 bucket pair.2 := by
  have tables : Tables store bucket := ⟨there, fun key => stackedAt_run laws run configures bucket key,
    keyed⟩
  obtain ⟨listed, latest⟩ := session_lists session laws drawn room plain tables nofun nofun nofun
  have ordered : InOrder (remaining store bucket params none) :=
    inOrder_remaining params none tables.once
  refine ⟨remaining store bucket params none, fun row => ?_, ordered, ?_, listed, latest⟩
  · rw [mem_remaining]
    exact and_congr_right fun _ => and_iff_left rfl
  · refine List.Nodup.map_on (fun first inFirst second inSecond same => ?_) ?_
    · exact List.inj_on_of_nodup_map tables.ids (mem_remaining.mp inFirst).1
        (mem_remaining.mp inSecond).1 same
    · refine List.Pairwise.imp (fun less equal => ?_) ordered
      subst equal
      exact order_asymm less less

end External

/-! ### A key with three versions -/

section Sample

attribute [local instance] External.sample S3External.sample

/-- Three versions of one key. -/
def threeCalls : List Call :=
  [.createBucket "b", .putConfig "b" "versioning" "Enabled",
    .writeObject "b" "k" (sampleObject "1"), .writeObject "b" "k" (sampleObject "2"),
    .writeObject "b" "k" (sampleObject "3")]

def threeVersions : Store :=
  sampleStore threeCalls

def onePerPage : ListParams where
  keyPrefix := ""
  delimiter := none
  after := none
  maxKeys := 1

/-- The page that a client is given. -/
def pageAt (store : Store) (marker : Option (String × String)) : VersionPage :=
  match listVersions store "b" { onePerPage with after := marker.map Prod.fst }
    (marker.map Prod.snd) with
  | .ok page => page
  | .error _ => VersionPage.default

theorem pageAt_ok {store : Store} (marker : Option (String × String))
    (there : "b" ∈ store.buckets) :
    listVersions store "b" { onePerPage with after := marker.map Prod.fst }
      (marker.map Prod.snd) = .ok (pageAt store marker) := by
  unfold pageAt listVersions requireBucket bucketExists
  rw [List.contains_iff_mem.mpr there]
  rfl

def withoutVersion (store : Store) (pair : String × String) : Store :=
  match deleteObject store "b" pair.1 (some pair.2) 0 with
  | .ok (_, after) => after
  | .error _ => store

theorem withoutVersion_deleted {store : Store} {pair : String × String}
    (done : (deleteObject store "b" pair.1 (some pair.2) 0).isOk = true) :
    Deletions "b" store [pair] (withoutVersion store pair) := by
  unfold withoutVersion
  cases same : deleteObject store "b" pair.1 (some pair.2) 0 with
  | ok result => exact .delete same (.none _)
  | error _ =>
    rw [same] at done
    cases done

theorem sample_named (draw : Nat) : (S3External.newVersionId draw).isEmpty = false := by
  have some : S3External.newVersionId draw ≠ "" := by
    intro empty
    have digits : (S3External.newVersionId draw).toList.length = 0 := by
      rw [empty]
      rfl
    rw [show (S3External.newVersionId draw) = decimal 32 draw from rfl, decimal,
      String.toList_ofList, List.length_append, List.length_replicate] at digits
    omega
  exact Bool.eq_false_iff.mpr fun empty => some (String.isEmpty_iff.mp empty)

/-- The versions of the key, newest first. -/
def thirdPair : String × String :=
  ("k", S3External.newVersionId 2)

def secondPair : String × String :=
  ("k", S3External.newVersionId 1)

/-- The page after the version that is named. -/
theorem pageAt_named {store : Store} {named : VersionRow} {pair : String × String}
    (same : pairOf named = pair) (there : "b" ∈ store.buckets) :
    listVersions store "b" { onePerPage with after := (some (markerOf named)).map Marker.key }
      ((some (markerOf named)).map Marker.versionId) = .ok (pageAt store (some pair)) := by
  rw [← same]
  exact pageAt_ok (some (pairOf named)) there

/-- The client is given a page that ends with the version, and goes on. -/
theorem session_next {fits : VersionRow → Store → Prop} {store later : Store}
    {marker : Option Marker} {seen removed : List (String × String)} {page : VersionPage}
    {pages : List (Store × VersionPage)} {named : VersionRow} {pair : String × String}
    (listed : listVersions store "b" { onePerPage with after := marker.map Marker.key }
      (marker.map Marker.versionId) = .ok page)
    (ends : page.truncated = true ∧ page.nextKeyMarker = some pair.1 ∧
      page.nextVersionMarker = some pair.2)
    (stored : named ∈ bucketVersions store "b") (same : pairOf named = pair)
    (own : ∀ pair ∈ removed, pair ∈ seen ++ page.versions)
    (deletions : Deletions "b" store removed later) (fit : fits named later)
    (rest : Session "b" onePerPage fits later (some (markerOf named)) (seen ++ page.versions) pages) :
    Session "b" onePerPage fits store marker seen ((store, page) :: pages) := by
  obtain ⟨cut, key, id⟩ := ends
  rw [← same] at key id
  exact Session.next listed cut stored key id own deletions fit rest

/-- **The client deletes the version that the markers name**, and goes on. -/
theorem versions_skipped :
    ∃ pages, Session "b" onePerPage (fun _ _ => True) threeVersions none [] pages ∧
      (∃ row ∈ bucketVersions threeVersions "b", pairOf row = secondPair) ∧
      (∃ row ∈ bucketVersions (withoutVersion threeVersions thirdPair) "b",
        pairOf row = secondPair) ∧
      secondPair ∉ pages.flatMap fun pair => pair.2.versions := by
  obtain ⟨named, stored, same⟩ : ∃ named ∈ bucketVersions threeVersions "b",
      pairOf named = thirdPair := by decide
  have rest : Session "b" onePerPage (fun _ _ => True) (withoutVersion threeVersions thirdPair)
      (some (markerOf named)) ([] ++ (pageAt threeVersions none).versions) _ :=
    Session.last (pageAt_named same (by decide)) (by decide)
  have deletions : Deletions "b" threeVersions [thirdPair] (withoutVersion threeVersions thirdPair) :=
    withoutVersion_deleted (by decide)
  have own : ∀ pair ∈ [thirdPair], pair ∈ [] ++ (pageAt threeVersions none).versions := by
    decide
  have first : listVersions threeVersions "b" { onePerPage with after := none } none =
      .ok (pageAt threeVersions none) := pageAt_ok none (by decide)
  have session : Session "b" onePerPage (fun _ _ => True) threeVersions none [] _ :=
    session_next first (by decide) stored same own deletions trivial rest
  refine ⟨_, session, ?_, ?_, ?_⟩
  · decide
  · decide
  · decide

/-- The same listing, in which the client deletes the first version when it has seen the second. -/
theorem versions_consumed_sample : ∃ rows : List VersionRow,
    (pageAt threeVersions none).versions ++
      (pageAt threeVersions (some thirdPair)).versions ++
      (pageAt (withoutVersion threeVersions thirdPair) (some secondPair)).versions =
        rows.map pairOf ∧
    ∀ row, row ∈ rows ↔ row ∈ bucketVersions threeVersions "b" ∧ startsWith row.key "" = true := by
  have there : "b" ∈ threeVersions.buckets := by decide
  obtain ⟨third, storedThird, sameThird⟩ : ∃ named ∈ bucketVersions threeVersions "b",
      pairOf named = thirdPair := by decide
  obtain ⟨second, storedSecond, sameSecond⟩ : ∃ named ∈ bucketVersions threeVersions "b",
      pairOf named = secondPair := by decide
  have configures : ∀ event ∈ Run.trace perform Store.empty (sampleInputs threeCalls),
      event.input.call.Configures := by
    intro event member
    have input := List.mem_map_of_mem (f := Event.input) member
    rw [Run.trace_inputs] at input
    obtain ⟨call, there, same⟩ := List.mem_map.mp input
    rw [← same]
    simp only [threeCalls, List.mem_cons, List.not_mem_nil, or_false] at there
    rcases there with rfl | rfl | rfl | rfl | rfl
    all_goals simp [Call.Configures]
  have final : Session "b" onePerPage (StillResumes "b") (withoutVersion threeVersions thirdPair)
      (some (markerOf second)) (([] ++ (pageAt threeVersions none).versions) ++
        (pageAt threeVersions (some thirdPair)).versions) _ :=
    Session.last (pageAt_named sameSecond (by decide)) (by decide)
  have own : ∀ pair ∈ [thirdPair], pair ∈ ([] ++ (pageAt threeVersions none).versions) ++
      (pageAt threeVersions (some thirdPair)).versions := by
    decide
  have deletions : Deletions "b" threeVersions [thirdPair] (withoutVersion threeVersions thirdPair) :=
    withoutVersion_deleted (by decide)
  have run : S3Run _ threeVersions := Run.of_trace perform (sampleInputs threeCalls) Store.empty
  have keyed : ∀ row ∈ bucketVersions threeVersions "b", row.key.isEmpty = false := by decide
  have tables : Tables threeVersions "b" :=
    ⟨there, fun key => stackedAt_run sample_versionIds run configures "b" key, keyed⟩
  have left : second ∈ bucketVersions (withoutVersion threeVersions thirdPair) "b" := by
    rw [(tables_deletions sample_versionIds deletions tables).2, sameSecond]
    exact ⟨storedSecond, by decide⟩
  have middle : Session "b" onePerPage (StillResumes "b") threeVersions (some (markerOf third))
      ([] ++ (pageAt threeVersions none).versions) _ :=
    session_next (pageAt_named sameThird there) (by decide) storedSecond sameSecond
      own deletions (Or.inl left) final
  have nothing : ∀ pair ∈ ([] : List (String × String)),
      pair ∈ [] ++ (pageAt threeVersions none).versions :=
    fun _ there => absurd there List.not_mem_nil
  have first : listVersions threeVersions "b" { onePerPage with after := none } none =
      .ok (pageAt threeVersions none) := pageAt_ok none there
  have session : Session "b" onePerPage (StillResumes "b") threeVersions none [] _ :=
    session_next first (by decide) storedThird sameThird nothing (.none _)
      (Or.inl storedThird) middle
  obtain ⟨rows, members, _, _, listed, _⟩ := versions_consumed sample_versionIds sample_named run configures there
    keyed (by decide) rfl session
  refine ⟨rows, ?_, members⟩
  rw [← listed]
  simp

end Sample

end CloudTwin.S3
