/-
**Listing the objects of a bucket** (`aws/s3/service.rs`, `list_objects`).

A page lists the keys after a marker. Keys whose remainder after the prefix holds the delimiter are
rolled up: their common prefix is listed once. The markup around a page is left out.

* `listRows` — the loop over the rows; `listObjects`, a page.
* `rollUp` — the loop without the limit: a page is its first entries.
* `Pages` — page after page, each after the last entry of the one before it.
* `list_objects_paged` — the pages together list every key and every common prefix once, in order.
-/

import CloudTwin.S3.Versions
import CloudTwin.Lib.Substring
import Mathlib.Data.String.Basic

namespace CloudTwin.S3

open Lib Lib.Text

set_option linter.unusedSectionVars false

/-! ### Pages -/

/-- `ListParams`. -/
structure ListParams where
  keyPrefix : String
  delimiter : Option String
  /-- Exclusive start key (V1 marker, V2 start-after / continuation token). -/
  after : Option String
  maxKeys : Nat

structure ListEntry where
  key : String
  size : Nat
  etag : String
  createdAt : Int
  storageClass : String

/-- What one turn of the loop pushes: an entry of the contents, or a common prefix. -/
inductive Listed where
  | content (entry : ListEntry)
  | rolled (common : String)

/-- The key or the common prefix. -/
def Listed.name : Listed → String
  | .content entry => entry.key
  | .rolled common => common

structure ListPage where
  /-- `contents` and `common_prefixes`, in the order in which they are pushed. -/
  entries : List Listed
  truncated : Bool
  last : Option String

def ListPage.contents (page : ListPage) : List ListEntry :=
  page.entries.filterMap fun
    | .content entry => some entry
    | .rolled _ => none

def ListPage.commonPrefixes (page : ListPage) : List String :=
  page.entries.filterMap fun
    | .content _ => none
    | .rolled common => some common

theorem page_size (page : ListPage) :
    page.contents.length + page.commonPrefixes.length = page.entries.length := by
  unfold ListPage.contents ListPage.commonPrefixes
  induction page.entries with
  | nil => rfl
  | cons listed rest ih =>
    cases listed with
    | content entry =>
      simp only [List.filterMap_cons, List.length_cons]
      omega
    | rolled common =>
      simp only [List.filterMap_cons, List.length_cons]
      omega

def ListPage.default : ListPage where
  entries := []
  truncated := false
  last := none

/-- `common_prefix`: the key up to the first delimiter after the prefix. -/
def commonPrefix (key keyPrefix : String) (delimiter : Option String) : Option String :=
  delimiter.bind fun text =>
    (findSub text.toList (key.toList.drop keyPrefix.toList.length)).map fun index =>
      String.ofList (key.toList.take (keyPrefix.toList.length + index + text.toList.length))

def entryOf (row : ObjectRow) : ListEntry where
  key := row.key
  size := row.size
  etag := row.etag
  createdAt := row.createdAt
  storageClass := row.objMeta.storageClassText

/-- `p.delimiter.as_deref().filter(|d| !d.is_empty())`. -/
def ListParams.delim (params : ListParams) : Option String :=
  params.delimiter.filter fun text => !text.isEmpty

/-- What a row is listed as. -/
def listedAs (params : ListParams) (row : ObjectRow) : Listed :=
  match commonPrefix row.key params.keyPrefix params.delim with
  | some common => .rolled common
  | none => .content (entryOf row)

/-- The common prefix that is now the last one. -/
def lastRolled (lastCommon : Option String) : Listed → Option String
  | .rolled common => some common
  | .content _ => lastCommon

/-- The row is not listed: its key is not after the marker, or its common prefix is listed. -/
def isSkipped (params : ListParams) (lastCommon : Option String) (row : ObjectRow) : Bool :=
  params.after.any (fun after => row.key ≤ after) ||
    match commonPrefix row.key params.keyPrefix params.delim with
    | some common => lastCommon == some common || params.after == some common
    | none => false

/-- **The loop over the rows**: what it pushes, and whether it stops at the limit. -/
def listRows (params : ListParams) (lastCommon : Option String) (count : Nat) :
    List ObjectRow → List Listed × Bool
  | [] => ([], false)
  | row :: rest =>
    if startsWith row.key params.keyPrefix = false then ([], false)
    else if isSkipped params lastCommon row then listRows params lastCommon count rest
    else if count ≥ params.maxKeys then ([], true)
    else
      let listed := listedAs params row
      let later := listRows params (lastRolled lastCommon listed) (count + 1) rest
      (listed :: later.1, later.2)

/-- `ORDER BY key`. -/
def keyOrder (first second : ObjectRow) : Prop :=
  first.key ≤ second.key

instance : DecidableRel keyOrder :=
  fun _ _ => inferInstanceAs (Decidable (_ ≤ _))

/-- `WHERE bucket = ?1 AND key >= ?2 ORDER BY key`. -/
def rowsFrom (store : Store) (bucket start : String) : List ObjectRow :=
  (store.objects.filter fun row => row.bucket == bucket && decide (start ≤ row.key)).insertionSort
    keyOrder

/-- **A page of the listing.** -/
def listObjects (store : Store) (bucket : String) (params : ListParams) : S3Result ListPage := do
  requireBucket store bucket
  if params.maxKeys = 0 then return ListPage.default
  let start := max params.keyPrefix (params.after.getD "")
  let listed := listRows params none 0 (rowsFrom store bucket start)
  return {
    entries := listed.1
    truncated := listed.2
    last := listed.1.getLast?.map Listed.name }

/-- **Page after page**, each after the last entry of the one before it. -/
inductive Pages (store : Store) (bucket : String) (params : ListParams) :
    Option String → List ListPage → Prop
  | last {after : Option String} {page : ListPage}
      (listed : listObjects store bucket { params with after } = .ok page)
      (whole : page.truncated = false) : Pages store bucket params after [page]
  | next {after : Option String} {page : ListPage} {rest : List ListPage}
      (listed : listObjects store bucket { params with after } = .ok page)
      (cut : page.truncated = true) (pages : Pages store bucket params page.last rest) :
      Pages store bucket params after (page :: rest)

/-! ### Common prefixes -/

theorem commonPrefix_some {key keyPrefix common : String} {delimiter : Option String}
    (starts : keyPrefix.toList <+: key.toList)
    (rolled : commonPrefix key keyPrefix delimiter = some common) :
    common.toList <+: key.toList ∧ keyPrefix.toList <+: common.toList ∧
      ∀ other : String, common.toList <+: other.toList →
        commonPrefix other keyPrefix delimiter = some common := by
  obtain ⟨text, rfl, there⟩ := Option.bind_eq_some_iff.mp rolled
  obtain ⟨index, found, rfl⟩ := Option.map_eq_some_iff.mp there
  clear there rolled
  obtain ⟨rest, whole⟩ := starts
  rw [← whole, List.drop_left] at found
  have taken : key.toList.take (keyPrefix.toList.length + index + text.toList.length) =
      keyPrefix.toList ++ rest.take (index + text.toList.length) := by
    rw [← whole, Nat.add_assoc, List.take_length_add_append]
  simp only [String.toList_ofList, taken]
  refine ⟨?_, List.prefix_append _ _, fun other startsToo => ?_⟩
  · rw [← whole]
    exact List.prefix_append_right_inj _ |>.mpr (List.take_prefix _ _)
  · obtain ⟨tail, same⟩ := startsToo
    have long := findSub_length found
    have length : (rest.take (index + text.toList.length)).length = index + text.toList.length := by
      rw [List.length_take]
      omega
    unfold commonPrefix
    rw [Option.bind_some, ← same, List.append_assoc, List.drop_left,
      findSub_stable found (List.prefix_append _ _), Option.map_some, Nat.add_assoc,
      List.take_length_add_append, List.take_left' length]

theorem startsWith_iff {text start : String} :
    startsWith text start = true ↔ start.toList <+: text.toList :=
  List.isPrefixOf_iff_prefix

theorem startsWith_le {text start : String} (starts : startsWith text start = true) :
    start ≤ text :=
  String.le_iff_toList_le.mpr (prefix_le (startsWith_iff.mp starts))

/-- The keys of one common prefix stand together. -/
theorem commonPrefix_between {middle last keyPrefix common : String} {delimiter : Option String}
    (starts : startsWith last keyPrefix = true)
    (rolled : commonPrefix last keyPrefix delimiter = some common) (above : common ≤ middle)
    (below : middle ≤ last) : commonPrefix middle keyPrefix delimiter = some common := by
  obtain ⟨inLast, _, groups⟩ := commonPrefix_some (startsWith_iff.mp starts) rolled
  exact groups middle (prefix_between inLast (String.le_iff_toList_le.mp above)
    (String.le_iff_toList_le.mp below))

/-! ### What a row is listed as -/

theorem listedAs_rolled {params : ListParams} {row : ObjectRow} {common : String} :
    listedAs params row = .rolled common ↔
      commonPrefix row.key params.keyPrefix params.delim = some common := by
  unfold listedAs
  split
  · rename_i other rolled
    rw [rolled, Listed.rolled.injEq, Option.some.injEq]
  · rename_i none
    rw [none]
    exact ⟨fun wrong => (by cases wrong), fun wrong => (by cases wrong)⟩

theorem listedAs_name {params : ListParams} {row : ObjectRow}
    (starts : startsWith row.key params.keyPrefix = true) :
    (listedAs params row).name.toList <+: row.key.toList := by
  unfold listedAs
  split
  · rename_i common rolled
    exact (commonPrefix_some (startsWith_iff.mp starts) rolled).1
  · exact List.prefix_refl _

theorem name_le {params : ListParams} {row : ObjectRow}
    (starts : startsWith row.key params.keyPrefix = true) : (listedAs params row).name ≤ row.key :=
  String.le_iff_toList_le.mpr (prefix_le (listedAs_name starts))

/-- **Of two keys in order, both have one common prefix, or what is listed is in order.** -/
theorem listedAs_mono {params : ListParams} {first second : ObjectRow}
    (starts : startsWith first.key params.keyPrefix = true)
    (startsToo : startsWith second.key params.keyPrefix = true) (less : first.key < second.key) :
    (∃ common, listedAs params first = .rolled common ∧ listedAs params second = .rolled common) ∨
      (listedAs params first).name < (listedAs params second).name := by
  cases rolled : commonPrefix second.key params.keyPrefix params.delim with
  | none =>
    refine Or.inr (lt_of_le_of_lt (name_le starts) ?_)
    have content : listedAs params second = .content (entryOf second) := by
      unfold listedAs
      rw [rolled]
    rw [content]
    exact less
  | some common =>
    have second' := listedAs_rolled.mpr rolled
    by_cases within : common ≤ first.key
    · have same := commonPrefix_between startsToo rolled within (le_of_lt less)
      exact Or.inl ⟨common, listedAs_rolled.mpr same, second'⟩
    · refine Or.inr (lt_of_le_of_lt (name_le starts) ?_)
      rw [second']
      exact not_le.mp within

/-- The row is listed unless it is skipped. -/
theorem isSkipped_eq_false {params : ListParams} {lastCommon : Option String} {row : ObjectRow} :
    isSkipped params lastCommon row = false ↔
      (∀ after, params.after = some after → after < row.key) ∧
      ∀ common, listedAs params row = .rolled common →
        params.after ≠ some common ∧ lastCommon ≠ some common := by
  unfold isSkipped
  rw [Bool.or_eq_false_iff]
  refine and_congr ?_ ?_
  · cases params.after with
    | none => simp
    | some after => simp
  · cases rolled : commonPrefix row.key params.keyPrefix params.delim with
    | none =>
      refine ⟨fun _ common listed => ?_, fun _ => rfl⟩
      rw [listedAs_rolled, rolled] at listed
      cases listed
    | some common =>
      simp only [Bool.or_eq_false_iff, beq_eq_false_iff_ne]
      refine ⟨fun fresh other listed => ?_, fun fresh => ?_⟩
      · rw [listedAs_rolled, rolled, Option.some.injEq] at listed
        subst listed
        exact ⟨fresh.2, fresh.1⟩
      · have both := fresh common (listedAs_rolled.mpr rolled)
        exact ⟨both.2, both.1⟩

/-! ### The loop without the limit -/

/-- What the loop would push without the limit. -/
def rollUp (params : ListParams) (lastCommon : Option String) : List ObjectRow → List Listed
  | [] => []
  | row :: rest =>
    if startsWith row.key params.keyPrefix = false then []
    else if isSkipped params lastCommon row then rollUp params lastCommon rest
    else
      listedAs params row :: rollUp params (lastRolled lastCommon (listedAs params row)) rest

/-- **The loop pushes the first entries**, and stops when there are more. -/
theorem listRows_eq (params : ListParams) (rows : List ObjectRow) :
    ∀ (lastCommon : Option String) (count : Nat), listRows params lastCommon count rows =
      ((rollUp params lastCommon rows).take (params.maxKeys - count),
        decide (params.maxKeys - count < (rollUp params lastCommon rows).length)) := by
  induction rows with
  | nil =>
    intro lastCommon count
    simp [listRows, rollUp]
  | cons row rest ih =>
    intro lastCommon count
    unfold listRows rollUp
    split
    · simp
    · split
      · exact ih lastCommon count
      · split
        · rename_i full
          have none : params.maxKeys - count = 0 := Nat.sub_eq_zero_of_le full
          rw [none, List.take_zero, List.length_cons, decide_eq_true (Nat.succ_pos _)]
        · rename_i room
          have more : params.maxKeys - count = params.maxKeys - (count + 1) + 1 := by omega
          simp only [ih, more, List.take_succ_cons, List.length_cons, Nat.add_lt_add_iff_right]

/-- The common prefix that is now the last one is not beyond the rows that follow. -/
theorem lastRolled_le {params : ListParams} {lastCommon : Option String} {row : ObjectRow}
    {rest : List ObjectRow} (starts : startsWith row.key params.keyPrefix = true)
    (later : ∀ other ∈ rest, row.key < other.key)
    (past : ∀ common, lastCommon = some common → ∀ other ∈ rest, common ≤ other.key) :
    ∀ common, lastRolled lastCommon (listedAs params row) = some common →
      ∀ other ∈ rest, common ≤ other.key := by
  intro common same other member
  cases rolled : listedAs params row with
  | content entry =>
    rw [rolled] at same
    exact past common same other member
  | rolled own =>
    rw [rolled] at same
    cases same
    have below := name_le starts
    rw [rolled] at below
    exact le_trans below (le_of_lt (later other member))

/-- **What the loop lists.** -/
theorem mem_rollUp {params : ListParams} {listed : Listed} {rows : List ObjectRow} :
    ∀ {lastCommon : Option String},
      (rows.Pairwise fun first second => first.key < second.key) →
      (∀ row ∈ rows, params.keyPrefix ≤ row.key) →
      (∀ common, lastCommon = some common → ∀ row ∈ rows, common ≤ row.key) →
      (listed ∈ rollUp params lastCommon rows ↔ ∃ row ∈ rows,
        startsWith row.key params.keyPrefix = true ∧
        (∀ after, params.after = some after → after < row.key) ∧ listedAs params row = listed ∧
        ∀ common, listed = .rolled common →
          params.after ≠ some common ∧ lastCommon ≠ some common) := by
  induction rows with
  | nil =>
    intro lastCommon _ _ _
    simp [rollUp]
  | cons row rest ih =>
    intro lastCommon sorted above past
    obtain ⟨later, sortedRest⟩ := List.pairwise_cons.mp sorted
    have aboveRest : ∀ other ∈ rest, params.keyPrefix ≤ other.key :=
      fun other member => above other (List.mem_cons_of_mem _ member)
    have pastRest : ∀ common, lastCommon = some common → ∀ other ∈ rest, common ≤ other.key :=
      fun common same other member => past common same other (List.mem_cons_of_mem _ member)
    unfold rollUp
    by_cases starts : startsWith row.key params.keyPrefix = true
    · rw [if_neg (by rw [starts]; nofun)]
      by_cases skipped : isSkipped params lastCommon row = true
      · rw [if_pos skipped, ih sortedRest aboveRest pastRest]
        refine ⟨fun ⟨other, member, rest⟩ => ⟨other, List.mem_cons_of_mem _ member, rest⟩,
          fun ⟨other, member, startsOther, after, same, fresh⟩ => ?_⟩
        rcases List.mem_cons.mp member with rfl | member
        · have kept := isSkipped_eq_false.mpr ⟨after, fun common rolled =>
            fresh common (same.symm.trans rolled)⟩
          rw [kept] at skipped
          cases skipped
        · exact ⟨other, member, startsOther, after, same, fresh⟩
      · rw [if_neg skipped, List.mem_cons]
        obtain ⟨afterRow, freshRow⟩ := isSkipped_eq_false.mp (Bool.eq_false_iff.mpr skipped)
        have pastNext := lastRolled_le starts later pastRest
        rw [ih sortedRest aboveRest pastNext]
        refine ⟨fun found => ?_, fun ⟨other, member, startsOther, after, same, fresh⟩ => ?_⟩
        · rcases found with rfl | ⟨other, member, startsOther, after, same, fresh⟩
          · exact ⟨row, List.mem_cons_self .., starts, afterRow, rfl, freshRow⟩
          · refine ⟨other, List.mem_cons_of_mem _ member, startsOther, after, same,
              fun common rolled => ⟨(fresh common rolled).1, fun wrong => ?_⟩⟩
            -- the keys of a common prefix stand together: the row would have it too
            have group := commonPrefix_between startsOther
              (listedAs_rolled.mp (same.trans rolled)) (past common wrong row (by simp))
              (le_of_lt (later other member))
            exact (freshRow common (listedAs_rolled.mpr group)).2 wrong
        · rcases List.mem_cons.mp member with rfl | member
          · exact Or.inl same.symm
          · by_cases own : listed = listedAs params row
            · exact Or.inl own
            · refine Or.inr ⟨other, member, startsOther, after, same, fun common rolled =>
                ⟨(fresh common rolled).1, fun wrong => ?_⟩⟩
              cases listedRow : listedAs params row with
              | content entry =>
                rw [listedRow] at wrong
                exact (fresh common rolled).2 wrong
              | rolled group =>
                rw [listedRow] at wrong own
                cases wrong
                exact own rolled
    · have no := Bool.eq_false_iff.mpr starts
      rw [if_pos no]
      refine ⟨nofun, fun ⟨other, member, startsOther, _⟩ => ?_⟩
      rcases List.mem_cons.mp member with rfl | member
      · exact absurd startsOther starts
      · refine absurd (startsWith_iff.mpr (prefix_between (startsWith_iff.mp startsOther)
          (String.le_iff_toList_le.mp (above row (by simp)))
          (String.le_iff_toList_le.mp (le_of_lt (later other member))))) starts

/-- **The loop lists in order.** -/
theorem sorted_rollUp {params : ListParams} {rows : List ObjectRow} :
    ∀ {lastCommon : Option String},
      (rows.Pairwise fun first second => first.key < second.key) →
      (∀ row ∈ rows, params.keyPrefix ≤ row.key) →
      (∀ common, lastCommon = some common → ∀ row ∈ rows, common ≤ row.key) →
      (rollUp params lastCommon rows).Pairwise fun first second => first.name < second.name := by
  induction rows with
  | nil => exact fun _ _ _ => List.Pairwise.nil
  | cons row rest ih =>
    intro lastCommon sorted above past
    obtain ⟨later, sortedRest⟩ := List.pairwise_cons.mp sorted
    have aboveRest : ∀ other ∈ rest, params.keyPrefix ≤ other.key :=
      fun other member => above other (List.mem_cons_of_mem _ member)
    have pastRest : ∀ common, lastCommon = some common → ∀ other ∈ rest, common ≤ other.key :=
      fun common same other member => past common same other (List.mem_cons_of_mem _ member)
    unfold rollUp
    split
    · exact List.Pairwise.nil
    · rename_i starts
      have starts : startsWith row.key params.keyPrefix = true := Bool.eq_true_of_not_eq_false starts
      split
      · exact ih sortedRest aboveRest pastRest
      · have pastNext := lastRolled_le starts later pastRest
        refine List.pairwise_cons.mpr ⟨fun listed member => ?_, ih sortedRest aboveRest pastNext⟩
        obtain ⟨other, there, startsOther, _, rfl, fresh⟩ :=
          (mem_rollUp sortedRest aboveRest pastNext).mp member
        rcases listedAs_mono starts startsOther (later other there) with
          ⟨common, own, same⟩ | less
        · refine absurd ?_ (fresh common same).2
          rw [own]
          rfl
        · exact less

/-! ### The rows of a bucket -/

section External

variable [External] [S3External]

/-- `PRIMARY KEY (bucket, key)`. -/
def KeysOnce (store : Store) (bucket : String) : Prop :=
  ((store.objects.filter fun row => row.bucket == bucket).map ObjectRow.key).Nodup

theorem mem_rowsFrom {store : Store} {bucket start : String} {row : ObjectRow} :
    row ∈ rowsFrom store bucket start ↔
      row ∈ store.objects ∧ row.bucket = bucket ∧ start ≤ row.key := by
  unfold rowsFrom
  rw [List.mem_insertionSort, List.mem_filter, Bool.and_eq_true, beq_iff_eq, decide_eq_true_iff]

theorem sorted_rowsFrom {store : Store} {bucket : String} (keys : KeysOnce store bucket)
    (start : String) :
    (rowsFrom store bucket start).Pairwise fun first second => first.key < second.key := by
  have : IsTrans ObjectRow keyOrder := ⟨fun _ _ _ first second => le_trans first second⟩
  have : Std.Total keyOrder := ⟨fun first second => le_total first.key second.key⟩
  have sorted := List.pairwise_insertionSort keyOrder (store.objects.filter fun row =>
    row.bucket == bucket && decide (start ≤ row.key))
  have once : ((rowsFrom store bucket start).map ObjectRow.key).Nodup := by
    refine ((List.perm_insertionSort keyOrder _).map ObjectRow.key).nodup_iff.mpr ?_
    refine keys.sublist (List.Sublist.map _ ?_)
    rw [show (store.objects.filter fun row => row.bucket == bucket && decide (start ≤ row.key)) =
      (store.objects.filter fun row => row.bucket == bucket).filter fun row =>
        decide (start ≤ row.key) by
      rw [List.filter_filter]
      exact List.filter_congr fun row _ => Bool.and_comm _ _]
    exact List.filter_sublist
  exact sorted.imp₂ (fun _ _ below different => lt_of_le_of_ne below different)
    (List.pairwise_map.mp once)

/-- All that is listed after a marker. -/
def rolls (store : Store) (bucket : String) (params : ListParams) : List Listed :=
  rollUp params none (rowsFrom store bucket (max params.keyPrefix (params.after.getD "")))

/-- **A page is the first entries of all that is listed.** -/
theorem listObjects_ok {store : Store} {bucket : String} {params : ListParams}
    (there : bucket ∈ store.buckets) (room : 0 < params.maxKeys) :
    listObjects store bucket params = .ok {
      entries := (rolls store bucket params).take params.maxKeys
      truncated := decide (params.maxKeys < (rolls store bucket params).length)
      last := ((rolls store bucket params).take params.maxKeys).getLast?.map Listed.name } := by
  refine ok_bind (rejectIf_pass (by simpa [bucketExists] using there)) ?_
  rw [if_neg (by omega)]
  simp only [listRows_eq, Nat.sub_zero]
  rfl

theorem mem_rolls {store : Store} {bucket : String} {params : ListParams} {listed : Listed}
    (keys : KeysOnce store bucket) :
    listed ∈ rolls store bucket params ↔ ∃ row ∈ store.objects, row.bucket = bucket ∧
      startsWith row.key params.keyPrefix = true ∧
      (∀ after, params.after = some after → after < row.key) ∧ listedAs params row = listed ∧
      ∀ common, listed = .rolled common → params.after ≠ some common := by
  unfold rolls
  rw [mem_rollUp (sorted_rowsFrom keys _)
    (fun row member => le_trans (le_max_left _ _) (mem_rowsFrom.mp member).2.2)
    (fun _ wrong => by cases wrong)]
  refine ⟨fun ⟨row, member, starts, after, same, fresh⟩ => ?_,
    fun ⟨row, stored, own, starts, after, same, fresh⟩ => ?_⟩
  · obtain ⟨stored, own, _⟩ := mem_rowsFrom.mp member
    exact ⟨row, stored, own, starts, after, same, fun common rolled => (fresh common rolled).1⟩
  · refine ⟨row, mem_rowsFrom.mpr ⟨stored, own, max_le (startsWith_le starts) ?_⟩, starts, after,
      same, fun common rolled => ⟨fresh common rolled, nofun⟩⟩
    cases marker : params.after with
    | none => exact String.le_iff_toList_le.mpr (nil_le_text _)
    | some marker' => exact le_of_lt (after marker' marker)

theorem sorted_rolls {store : Store} {bucket : String} (params : ListParams)
    (keys : KeysOnce store bucket) :
    (rolls store bucket params).Pairwise fun first second => first.name < second.name :=
  sorted_rollUp (sorted_rowsFrom keys _)
    (fun row member => le_trans (le_max_left _ _) (mem_rowsFrom.mp member).2.2)
    fun _ wrong => by cases wrong

/-! ### From one page to the next -/

/-- The marker is no common prefix of a key after it. -/
def OffPrefix (store : Store) (bucket : String) (params : ListParams) : Prop :=
  ∀ row ∈ store.objects, row.bucket = bucket → startsWith row.key params.keyPrefix = true →
    (∀ after, params.after = some after → after < row.key) →
    commonPrefix row.key params.keyPrefix params.delim ≠ params.after ∨ params.after = none

/-- Two lists in order with the same members are the same. -/
theorem sorted_unique {first second : List Listed}
    (sortedFirst : first.Pairwise fun one other => one.name < other.name)
    (sortedSecond : second.Pairwise fun one other => one.name < other.name)
    (same : ∀ listed, listed ∈ first ↔ listed ∈ second) : first = second := by
  have distinct : ∀ {list : List Listed},
      (list.Pairwise fun one other => one.name < other.name) → list.Nodup := fun sorted =>
    sorted.imp fun less equal => absurd (equal ▸ less) (lt_irrefl _)
  have perm := (List.perm_ext_iff_of_nodup (distinct sortedFirst) (distinct sortedSecond)).mpr same
  exact perm.eq_of_pairwise (fun _ _ _ _ less more => absurd (less.trans more) (lt_irrefl _))
    sortedFirst sortedSecond

/-- **What is listed after an entry are the entries after it.** -/
theorem rolls_after {store : Store} {bucket : String} {params : ListParams} {entry : Listed}
    (keys : KeysOnce store bucket) (off : OffPrefix store bucket params)
    (member : entry ∈ rolls store bucket params) :
    rolls store bucket { params with after := some entry.name } =
      (rolls store bucket params).filter fun listed => entry.name < listed.name := by
  refine sorted_unique (sorted_rolls _ keys) ((sorted_rolls params keys).filter _) fun listed => ?_
  rw [List.mem_filter, decide_eq_true_iff, mem_rolls keys, mem_rolls keys]
  obtain ⟨first, storedFirst, ownFirst, startsFirst, afterFirst, sameFirst, _⟩ :=
    (mem_rolls keys).mp member
  subst sameFirst
  have offRow : ∀ row ∈ store.objects, row.bucket = bucket →
      startsWith row.key params.keyPrefix = true →
      (∀ after, params.after = some after → after < row.key) →
      ∀ common, listedAs params row = .rolled common → params.after ≠ some common := by
    intro row stored own starts after common rolled wrong
    rcases off row stored own starts after with different | none
    · exact different ((listedAs_rolled.mp rolled).trans wrong.symm)
    · rw [none] at wrong
      cases wrong
  constructor
  · rintro ⟨row, stored, own, starts, after, rfl, fresh⟩
    have beyond : (listedAs params first).name < row.key := after _ rfl
    have apart : ∀ common, listedAs params row = .rolled common →
        (listedAs params first).name ≠ common := fun common rolled wrong =>
      fresh common rolled (congrArg some wrong)
    -- the row comes after the one of the entry: otherwise both have one common prefix
    have order : first.key < row.key ∧ (listedAs params first).name < (listedAs params row).name := by
      rcases lt_trichotomy first.key row.key with less | equal | more
      · refine ⟨less, ?_⟩
        rcases listedAs_mono startsFirst starts less with ⟨common, same, sameRow⟩ | order
        · exact absurd (by rw [same]; rfl) (apart common sameRow)
        · exact order
      · exfalso
        cases rolled : commonPrefix row.key params.keyPrefix params.delim with
        | none =>
          have content : listedAs params first = .content (entryOf first) := by
            unfold listedAs
            rw [equal, rolled]
          rw [content] at beyond
          exact absurd equal (ne_of_lt beyond)
        | some common =>
          refine apart common (listedAs_rolled.mpr rolled) ?_
          have same : listedAs params first = .rolled common :=
            listedAs_rolled.mpr (by rw [equal]; exact rolled)
          rw [same]
          rfl
      · exfalso
        rcases @listedAs_mono params row first starts startsFirst more with ⟨common, sameRow, same⟩ | less
        · exact apart common sameRow (by rw [same]; rfl)
        · cases rolled : commonPrefix row.key params.keyPrefix params.delim with
          | none =>
            have content : listedAs params row = .content (entryOf row) := by
              unfold listedAs
              rw [rolled]
            rw [content] at less
            exact absurd (less.trans beyond) (lt_irrefl _)
          | some common =>
            have listedRow := listedAs_rolled.mpr rolled
            rw [listedRow] at less
            obtain ⟨inRow, _, groups⟩ := commonPrefix_some (startsWith_iff.mp starts) rolled
            have inEntry := prefix_between inRow (String.le_iff_toList_le.mp (le_of_lt less))
              (String.le_iff_toList_le.mp (le_of_lt beyond))
            have group := groups first.key (inEntry.trans (listedAs_name startsFirst))
            have same : listedAs params first = .rolled common := listedAs_rolled.mpr group
            exact apart common listedRow (by rw [same]; rfl)
    have afterRow : ∀ marker, params.after = some marker → marker < row.key :=
      fun marker same => (afterFirst marker same).trans order.1
    exact ⟨⟨row, stored, own, starts, afterRow, rfl,
      offRow row stored own starts afterRow⟩, order.2⟩
  · rintro ⟨⟨row, stored, own, starts, after, rfl, _⟩, less⟩
    refine ⟨row, stored, own, starts, fun marker same => ?_, rfl, fun common rolled wrong => ?_⟩
    · cases same
      exact lt_of_lt_of_le less (name_le starts)
    · have same : (listedAs params first).name = common := Option.some.inj wrong
      have listedRow : listedAs params row = .rolled common := rolled
      rw [listedRow, same] at less
      exact lt_irrefl _ less

theorem filter_beyond {before rest : List Listed} {entry : Listed}
    (sorted : (before ++ entry :: rest).Pairwise fun one other => one.name < other.name) :
    (before ++ entry :: rest).filter (fun listed => entry.name < listed.name) = rest := by
  obtain ⟨_, sortedRest, less⟩ := List.pairwise_append.mp sorted
  obtain ⟨later, _⟩ := List.pairwise_cons.mp sortedRest
  rw [List.filter_append, List.filter_cons_of_neg (by simp), List.filter_eq_nil_iff.mpr,
    List.filter_eq_self.mpr, List.nil_append]
  · exact fun listed member => decide_eq_true (later listed member)
  · intro listed member wrong
    exact absurd ((less listed member entry (by simp)).trans (of_decide_eq_true wrong))
      (lt_irrefl _)

/-- **The pages of what is still to be listed.** -/
theorem pages_of_rest {store : Store} {bucket : String} {params : ListParams}
    (keys : KeysOnce store bucket) (off : OffPrefix store bucket params)
    (there : bucket ∈ store.buckets) (room : 0 < params.maxKeys) (size : Nat) :
    ∀ (before rest : List Listed) (after : Option String), rest.length = size →
      rolls store bucket params = before ++ rest →
      rolls store bucket { params with after } = rest →
      ∃ pages, Pages store bucket params after pages ∧
        pages.flatMap ListPage.entries = rest ∧
        (∀ page ∈ pages.dropLast, page.entries.length = params.maxKeys) ∧
        ∀ page, pages.getLast? = some page → page.truncated = false := by
  induction size using Nat.strong_induction_on with
  | _ size ih =>
    intro before rest after length whole listed
    have page := @listObjects_ok _ _ store bucket { params with after } there room
    rw [listed] at page
    by_cases more : params.maxKeys < rest.length
    · -- the last entry of the page, and what is listed after it
      have nonempty : rest.take params.maxKeys ≠ [] := by
        rw [Ne, List.take_eq_nil_iff, not_or]
        exact ⟨by omega, fun none => by rw [none] at more; exact absurd more (Nat.not_lt_zero _)⟩
      obtain ⟨taken, entry, cut⟩ : ∃ taken entry, rest.take params.maxKeys = taken ++ [entry] :=
        ⟨_, _, (List.dropLast_append_getLast nonempty).symm⟩
      have split : rolls store bucket params =
          (before ++ taken) ++ entry :: rest.drop params.maxKeys := by
        rw [whole]
        conv_lhs => rw [← List.take_append_drop params.maxKeys rest, cut]
        simp
      have member : entry ∈ rolls store bucket params := by
        rw [split]
        simp
      have next := rolls_after keys off member
      have sorted := sorted_rolls params keys
      rw [split] at next sorted
      rw [filter_beyond sorted] at next
      obtain ⟨pages, follow, all, full, final⟩ := ih (rest.length - params.maxKeys) (by omega)
        (before ++ rest.take params.maxKeys) (rest.drop params.maxKeys) (some entry.name)
        (by rw [List.length_drop]) (by rw [whole, List.append_assoc, List.take_append_drop]) next
      have last : ((rest.take params.maxKeys).getLast?.map Listed.name) = some entry.name := by
        rw [cut]
        simp
      refine ⟨_ :: pages, Pages.next page (decide_eq_true more) ?_, ?_, ?_, ?_⟩
      · show Pages store bucket params ((rest.take params.maxKeys).getLast?.map Listed.name) pages
        rw [last]
        exact follow
      · rw [List.flatMap_cons, all]
        exact List.take_append_drop _ _
      · have some : pages ≠ [] := by
          rintro rfl
          cases follow
        intro other there
        rw [List.dropLast_cons_of_ne_nil some] at there
        rcases List.mem_cons.mp there with rfl | later
        · show (rest.take params.maxKeys).length = _
          rw [List.length_take]
          omega
        · exact full other later
      · have some : pages ≠ [] := by
          rintro rfl
          cases follow
        intro other same
        rw [List.getLast?_cons_of_ne_nil some] at same
        exact final other same
    · refine ⟨[_], Pages.last page (decide_eq_false more), ?_, nofun, ?_⟩
      · rw [List.flatMap_cons, List.flatMap_nil, List.append_nil]
        exact List.take_of_length_le (not_lt.mp more)
      · intro other same
        cases same
        exact decide_eq_false more

/-- The pages are determined: each call has one answer. -/
theorem Pages.unique {store : Store} {bucket : String} {params : ListParams} {after : Option String}
    {first : List ListPage} (pages : Pages store bucket params after first) :
    ∀ second, Pages store bucket params after second → first = second := by
  induction pages with
  | last listed whole =>
    intro second other
    cases other with
    | last listedToo _ =>
      rw [listed] at listedToo
      cases listedToo
      rfl
    | next listedToo cut _ =>
      rw [listed] at listedToo
      cases listedToo
      rw [whole] at cut
      cases cut
  | next listed cut _ ih =>
    intro second other
    cases other with
    | last listedToo whole =>
      rw [listed] at listedToo
      cases listedToo
      rw [whole] at cut
      cases cut
    | next listedToo _ rest =>
      rw [listed] at listedToo
      cases listedToo
      rw [ih _ rest]

/-- **What the listing is to hold**: a key without the delimiter after the prefix, or the part of a key
up to it. -/
def IsExpected (store : Store) (bucket : String) (params : ListParams) (listed : Listed) : Prop :=
  ∃ row ∈ store.objects, row.bucket = bucket ∧ params.keyPrefix.toList <+: row.key.toList ∧
    (∀ start, params.after = some start → start < row.key) ∧
    match listed with
    | .content entry => entry = entryOf row ∧ ∀ text, params.delim = some text →
        ¬ text.toList <:+: row.key.toList.drop params.keyPrefix.toList.length
    | .rolled common => ∃ text index, params.delim = some text ∧
        findSub text.toList (row.key.toList.drop params.keyPrefix.toList.length) = some index ∧
        common.toList =
          row.key.toList.take (params.keyPrefix.toList.length + index + text.toList.length)

theorem isExpected_iff {store : Store} {bucket : String} {params : ListParams} {listed : Listed} :
    IsExpected store bucket params listed ↔ ∃ row ∈ store.objects, row.bucket = bucket ∧
      startsWith row.key params.keyPrefix = true ∧
      (∀ after, params.after = some after → after < row.key) ∧ listedAs params row = listed := by
  refine exists_congr fun row => and_congr_right fun _ => and_congr_right fun _ =>
    and_congr startsWith_iff.symm (and_congr_right fun _ => ?_)
  cases listed with
  | content entry =>
    unfold listedAs commonPrefix
    cases params.delim with
    | none => simp [eq_comm]
    | some text =>
      rw [Option.bind_some]
      cases found : findSub text.toList (row.key.toList.drop params.keyPrefix.toList.length) with
      | none =>
        rw [Option.map_none]
        have absent := findSub_none.mp found
        refine ⟨fun both => congrArg Listed.content both.1.symm, fun same => ?_⟩
        cases same
        refine ⟨rfl, fun other equal => ?_⟩
        cases equal
        exact absent
      | some index =>
        rw [Option.map_some]
        refine ⟨fun both => ?_, fun same => ?_⟩
        · rw [findSub_none.mpr (both.2 text rfl)] at found
          cases found
        · cases same
  | rolled common =>
    rw [listedAs_rolled]
    unfold commonPrefix
    refine ⟨fun split => ?_, fun rolled => ?_⟩
    · obtain ⟨text, index, given, found, same⟩ := split
      rw [given, Option.bind_some, found, Option.map_some, ← same, String.ofList_toList]
    · obtain ⟨text, given, there⟩ := Option.bind_eq_some_iff.mp rolled
      obtain ⟨index, found, rfl⟩ := Option.map_eq_some_iff.mp there
      exact ⟨text, index, given, found, String.toList_ofList⟩

/-- **Paging through a bucket.** Following the last entry of each page until one is not truncated, a
client gets pages, and only these, which together list every expected key and common prefix once, in
order; every page but the last is full, and the last one is not truncated. -/
theorem list_objects_paged {store : Store} {bucket : String} {params : ListParams}
    (there : bucket ∈ store.buckets) (keys : KeysOnce store bucket) (room : 0 < params.maxKeys)
    (off : OffPrefix store bucket params) :
    ∃ pages, Pages store bucket params params.after pages ∧
      (∀ other, Pages store bucket params params.after other → other = pages) ∧
      (∀ listed, listed ∈ pages.flatMap ListPage.entries ↔
        IsExpected store bucket params listed) ∧
      ((pages.flatMap ListPage.entries).Pairwise fun first second => first.name < second.name) ∧
      (∀ page ∈ pages.dropLast,
        page.contents.length + page.commonPrefixes.length = params.maxKeys) ∧
      ∀ page, pages.getLast? = some page → page.truncated = false := by
  obtain ⟨pages, follow, all, full, final⟩ := pages_of_rest keys off there room _ []
    (rolls store bucket params) params.after rfl rfl rfl
  refine ⟨pages, follow, fun other others => (follow.unique other others).symm, fun listed => ?_, ?_,
    fun page member => (page_size page).trans (full page member), final⟩
  · rw [all, mem_rolls keys, isExpected_iff]
    refine ⟨fun ⟨row, stored, own, starts, after, same, _⟩ =>
      ⟨row, stored, own, starts, after, same⟩, fun ⟨row, stored, own, starts, after, same⟩ =>
      ⟨row, stored, own, starts, after, same, fun common rolled wrong => ?_⟩⟩
    rcases off row stored own starts after with different | none
    · exact different ((listedAs_rolled.mp (same.trans rolled)).trans wrong.symm)
    · rw [none] at wrong
      cases wrong
  · rw [all]
    exact sorted_rolls params keys

/-- In every run a key is current once. -/
theorem keysOnce_run {history : List S3Event} {store : Store} (laws : VersionIdLaws ‹S3External›)
    (run : S3Run history store) (configures : ∀ event ∈ history, event.input.call.Configures)
    (bucket : String) : KeysOnce store bucket := by
  have single : ∀ key, (shelfOf store bucket key).current.length ≤ 1 := fun key =>
    (stackedAt_run laws run configures bucket key).single
  have alone : ∀ rows : List ObjectRow,
      (∀ key, (rows.filter fun row => row.isFor bucket key).length ≤ 1) →
      ((rows.filter fun row => row.bucket == bucket).map ObjectRow.key).Nodup := by
    intro rows
    induction rows with
    | nil => exact fun _ => List.nodup_nil
    | cons row rest ih =>
      intro few
      have fewRest : ∀ key, (rest.filter fun row => row.isFor bucket key).length ≤ 1 := fun key =>
        le_trans ((List.sublist_cons_self row rest).filter _).length_le (few key)
      by_cases own : row.bucket = bucket
      · rw [List.filter_cons, if_pos (beq_iff_eq.mpr own), List.map_cons, List.nodup_cons]
        refine ⟨fun again => ?_, ih fewRest⟩
        obtain ⟨other, member, same⟩ := List.mem_map.mp again
        obtain ⟨stored, ownToo⟩ := List.mem_filter.mp member
        have two := few row.key
        rw [List.filter_cons, if_pos (isFor_iff.mpr ⟨own, rfl⟩), List.length_cons] at two
        have inRest : other ∈ rest.filter fun old => old.isFor bucket row.key :=
          List.mem_filter.mpr ⟨stored, isFor_iff.mpr ⟨beq_iff_eq.mp ownToo, same⟩⟩
        have some := List.length_pos_of_mem inRest
        omega
      · rw [List.filter_cons, if_neg fun wrong => own (beq_iff_eq.mp wrong)]
        exact ih fewRest
  exact alone store.objects single

end External

/-! ### A bucket in pages -/

section Sample

attribute [local instance] External.sample S3External.sample

def listedKeys : List String :=
  ["a", "p/b", "p/c", "q", "p/d/e"]

def listedStore : Store :=
  sampleStore (.createBucket "b" :: listedKeys.map fun key => .writeObject "b" key (sampleObject ""))

def pagedParams : ListParams where
  keyPrefix := ""
  delimiter := some "/"
  after := none
  maxKeys := 2

theorem list_objects_paged_sample :
    ∃ pages, Pages listedStore "b" pagedParams none pages ∧
      ∀ listed, listed ∈ pages.flatMap ListPage.entries ↔
        IsExpected listedStore "b" pagedParams listed := by
  have keys : KeysOnce listedStore "b" := by
    unfold KeysOnce
    decide
  have there : "b" ∈ listedStore.buckets := by decide
  obtain ⟨pages, follow, _, listed, _⟩ := @list_objects_paged _ _ listedStore "b" pagedParams there
    keys (by decide) fun _ _ _ _ _ => Or.inr rfl
  exact ⟨pages, follow, listed⟩

end Sample

end CloudTwin.S3
