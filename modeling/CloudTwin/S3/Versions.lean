/-
**The versions of a key are a stack.**

The current version of a key is a row of `s3_objects`, the other versions and the delete markers are
rows of `s3_object_versions`. Writes, deletions and restorations move rows between the two tables.

* `Shelf` — the rows of one key in the two tables, and `Shelf.rows`, its versions.
* `Stacked` — no version id twice, the current version newer than the archived ones, and without a
  current version the newest one a delete marker.
* `Advance` — what a call does to the shelf of a key.
* `versions_stacked` — in every run the versions of every key are stacked, a request without a version
  id sees the newest version, and a version goes only when a request names or replaces it.
-/

import CloudTwin.S3.References
import Mathlib.Data.List.Sort

namespace CloudTwin.S3

open Lib

set_option linter.unusedSectionVars false

/-! ### The rows of a key -/

structure Shelf where
  archived : List VersionRow
  current : List ObjectRow

/-- The current version among the versions: it is no delete marker. -/
def live (row : ObjectRow) : VersionRow :=
  { row with isDeleteMarker := false }

/-- The versions of the key. -/
def Shelf.rows (shelf : Shelf) : List VersionRow :=
  shelf.archived ++ shelf.current.map live

def shelfOf (store : Store) (bucket key : String) : Shelf where
  archived := store.versions.filter fun row => row.isFor bucket key
  current := store.objects.filter fun row => row.isFor bucket key

theorem Shelf.ext_iff' {first second : Shelf} :
    first = second ↔ first.archived = second.archived ∧ first.current = second.current := by
  cases first
  cases second
  simp

theorem mem_current_isFor {store : Store} {bucket key : String} {row : ObjectRow}
    (member : row ∈ (shelfOf store bucket key).current) : row.isFor bucket key = true :=
  (List.mem_filter.mp member).2

theorem mem_archived_isFor {store : Store} {bucket key : String} {row : VersionRow}
    (member : row ∈ (shelfOf store bucket key).archived) : row.isFor bucket key = true :=
  (List.mem_filter.mp member).2

section External

variable [External] [S3External]

theorem currentInfo_eq (store : Store) (bucket key : String) :
    currentInfo store bucket key = (shelfOf store bucket key).current.head?.map fun row =>
      { infoFromRow row false with isLatest := true } := by
  unfold currentInfo shelfOf
  rw [List.head?_filter]

/-- **The newest archived version.** -/
theorem latestArchived_some {store : Store} {bucket key : String} {info : ObjectInfo}
    (found : latestArchived store bucket key = some info) :
    ∃ row ∈ (shelfOf store bucket key).archived,
      info = infoFromRow row.toObjectRow row.isDeleteMarker ∧
        ∀ other ∈ (shelfOf store bucket key).archived, other.seq ≤ row.seq := by
  unfold latestArchived at found
  obtain ⟨row, first, rfl⟩ := Option.map_eq_some_iff.mp found
  have permuted := List.perm_insertionSort newerFirst (shelfOf store bucket key).archived
  have : IsTrans VersionRow newerFirst := ⟨fun _ _ _ first second => le_trans second first⟩
  have : Std.Total newerFirst := ⟨fun first second => le_total second.seq first.seq⟩
  have sorted := List.pairwise_insertionSort newerFirst (shelfOf store bucket key).archived
  change ((shelfOf store bucket key).archived.insertionSort newerFirst).head? = some row at first
  obtain ⟨rest, whole⟩ := List.head?_eq_some_iff.mp first
  rw [whole] at permuted sorted
  refine ⟨row, permuted.subset (List.mem_cons_self ..), rfl, fun other member => ?_⟩
  rcases List.mem_cons.mp (permuted.symm.subset member) with rfl | later
  · exact le_refl _
  · exact (List.pairwise_cons.mp sorted).1 other later

theorem latestArchived_none {store : Store} {bucket key : String}
    (absent : latestArchived store bucket key = none) :
    (shelfOf store bucket key).archived = [] := by
  unfold latestArchived at absent
  rw [Option.map_eq_none_iff, List.head?_eq_none_iff] at absent
  have permuted := List.perm_insertionSort newerFirst (shelfOf store bucket key).archived
  have none : (shelfOf store bucket key).archived.insertionSort newerFirst = [] := absent
  rw [none] at permuted
  exact permuted.symm.eq_nil

/-! ### What the tables' operations do to a shelf -/

theorem shelf_dropCurrent (store : Store) (bucket key : String) :
    shelfOf (dropCurrent store bucket key) bucket key =
      { shelfOf store bucket key with current := [] } := by
  refine Shelf.ext_iff'.mpr ⟨rfl, ?_⟩
  show (store.objects.filter _).filter _ = []
  refine List.filter_eq_nil_iff.mpr fun row member own => ?_
  simp [own] at member

theorem shelf_dropVersion (store : Store) (bucket key versionId : String) :
    shelfOf (dropVersion store bucket key versionId) bucket key =
      { shelfOf store bucket key with
        archived := (shelfOf store bucket key).archived.filter fun row =>
          row.versionId != versionId } := by
  refine Shelf.ext_iff'.mpr ⟨?_, rfl⟩
  show (store.versions.filter _).filter _ = (store.versions.filter _).filter _
  rw [List.filter_filter, List.filter_filter]
  refine List.filter_congr fun row _ => ?_
  by_cases own : row.isFor bucket key = true
  · simp [own, ObjectRow.isVersion, bne]
  · simp [own]

theorem shelf_addObject {store : Store} {row : ObjectRow} {bucket key : String}
    (own : row.isFor bucket key = true) :
    shelfOf (addObject store row) bucket key =
      { shelfOf store bucket key with current := (shelfOf store bucket key).current ++ [row] } := by
  refine Shelf.ext_iff'.mpr ⟨rfl, ?_⟩
  show (store.objects ++ [row]).filter _ = store.objects.filter _ ++ [row]
  simp [List.filter_append, own]

theorem shelf_addVersion {store : Store} {row : VersionRow} {bucket key : String}
    (own : row.isFor bucket key = true) :
    shelfOf (addVersion store row) bucket key =
      { shelfOf store bucket key with archived := (shelfOf store bucket key).archived ++ [row] } := by
  refine Shelf.ext_iff'.mpr ⟨?_, rfl⟩
  show (store.versions ++ [row]).filter _ = store.versions.filter _ ++ [row]
  simp [List.filter_append, own]

/-- The current version is archived; no archived version has its id. -/
theorem shelf_archiveCurrent {store : Store} {bucket key : String}
    (ids : ((shelfOf store bucket key).rows.map fun row => row.versionId).Nodup) :
    shelfOf (archiveCurrent store bucket key) bucket key =
      { archived := (shelfOf store bucket key).rows, current := [] } := by
  refine Shelf.ext_iff'.mpr ⟨?_, ?_⟩
  · show (List.filter _ _ ++ _).filter _ = _
    rw [List.filter_append]
    have old : ((store.versions.filter fun old =>
        !(shelfOf store bucket key).current.any fun row =>
          old.isVersion bucket key row.versionId).filter fun row => row.isFor bucket key) =
        (shelfOf store bucket key).archived := by
      refine filter_filter_same fun row member own => ?_
      rw [Bool.not_eq_true', List.any_eq_false]
      intro other memberOther same
      rw [Shelf.rows, List.map_append, List.nodup_append] at ids
      refine ids.2.2 row.versionId (List.mem_map_of_mem (List.mem_filter.mpr ⟨member, own⟩))
        other.versionId ?_ (isVersion_iff.mp same).2
      rw [List.map_map]
      exact List.mem_map_of_mem (f := fun row : ObjectRow => row.versionId) memberOther
    have moved : (((shelfOf store bucket key).current.map live).filter fun row =>
        row.isFor bucket key) = (shelfOf store bucket key).current.map live := by
      refine List.filter_eq_self.mpr fun row member => ?_
      obtain ⟨current, memberCurrent, rfl⟩ := List.mem_map.mp member
      exact mem_current_isFor memberCurrent
    exact congrArg₂ (· ++ ·) old moved
  · show (List.filter _ _).filter _ = []
    refine List.filter_eq_nil_iff.mpr fun row member own => ?_
    simp [own] at member

/-! ### Distinct versions -/

/-- **Version ids and sequence numbers are used once.** -/
structure Distinct (rows : List VersionRow) (seq drawn : Nat) : Prop where
  ids : (rows.map fun row => row.versionId).Nodup
  seqs : (rows.map fun row => row.seq).Nodup
  bound : ∀ row ∈ rows, row.seq ≤ seq
  drawn : ∀ row ∈ rows, row.versionId = "null" ∨
    ∃ draw < drawn, row.versionId = S3External.newVersionId draw

namespace Distinct

variable {rows other : List VersionRow} {seq seq' drawn drawn' : Nat}

theorem sublist (distinct : Distinct rows seq drawn) (sub : other.Sublist rows) :
    Distinct other seq drawn where
  ids := distinct.ids.sublist (sub.map _)
  seqs := distinct.seqs.sublist (sub.map _)
  bound row member := distinct.bound row (sub.subset member)
  drawn row member := distinct.drawn row (sub.subset member)

theorem perm (distinct : Distinct rows seq drawn) (same : other.Perm rows) :
    Distinct other seq drawn where
  ids := (same.map _).nodup_iff.mpr distinct.ids
  seqs := (same.map _).nodup_iff.mpr distinct.seqs
  bound row member := distinct.bound row (same.subset member)
  drawn row member := distinct.drawn row (same.subset member)

theorem mono (distinct : Distinct rows seq drawn) (later : seq ≤ seq') (more : drawn ≤ drawn') :
    Distinct rows seq' drawn' where
  ids := distinct.ids
  seqs := distinct.seqs
  bound row member := le_trans (distinct.bound row member) later
  drawn row member := (distinct.drawn row member).imp_right fun ⟨draw, before, same⟩ =>
    ⟨draw, lt_of_lt_of_le before more, same⟩

/-- A version with a new id and the next sequence number. -/
theorem push (distinct : Distinct rows seq drawn) {row : VersionRow} (next : row.seq = seq + 1)
    (fresh : ∀ old ∈ rows, old.versionId ≠ row.versionId)
    (named : row.versionId = "null" ∨ ∃ draw < drawn, row.versionId = S3External.newVersionId draw) :
    Distinct (rows ++ [row]) (seq + 1) drawn := by
  refine ⟨?_, ?_, fun old member => ?_, fun old member => ?_⟩
  · rw [List.map_append, List.nodup_append]
    refine ⟨distinct.ids, List.nodup_singleton _, fun id member newId same => ?_⟩
    obtain ⟨old, memberOld, rfl⟩ := List.mem_map.mp member
    rw [List.map_singleton, List.mem_singleton] at same
    rw [same]
    exact fresh old memberOld
  · rw [List.map_append, List.nodup_append]
    refine ⟨distinct.seqs, List.nodup_singleton _, fun number member newNumber same => ?_⟩
    obtain ⟨old, memberOld, rfl⟩ := List.mem_map.mp member
    rw [List.map_singleton, List.mem_singleton] at same
    have := distinct.bound old memberOld
    omega
  · rcases List.mem_append.mp member with past | new
    · exact le_trans (distinct.bound old past) (Nat.le_succ seq)
    · rw [List.mem_singleton.mp new]
      exact next.le
  · rcases List.mem_append.mp member with past | new
    · exact distinct.drawn old past
    · rw [List.mem_singleton.mp new]
      exact named

/-- A version is known by its id. -/
theorem unique (distinct : Distinct rows seq drawn) {first second : VersionRow}
    (memberFirst : first ∈ rows) (memberSecond : second ∈ rows)
    (same : first.versionId = second.versionId) : first = second :=
  List.inj_on_of_nodup_map distinct.ids memberFirst memberSecond same

end Distinct

/-- The row of an id alone. -/
theorem filter_own {rows : List VersionRow} {row : VersionRow} (member : row ∈ rows)
    (ids : (rows.map fun row => row.versionId).Nodup) :
    rows.filter (fun other => other.versionId == row.versionId) = [row] := by
  induction rows with
  | nil => cases member
  | cons first rest ih =>
    rw [List.map_cons, List.nodup_cons] at ids
    rcases List.mem_cons.mp member with rfl | later
    · rw [List.filter_cons, if_pos (beq_self_eq_true _), List.filter_eq_nil_iff.mpr]
      exact fun other memberOther same =>
        ids.1 (List.mem_map.mpr ⟨other, memberOther, beq_iff_eq.mp same⟩)
    · rw [List.filter_cons, if_neg, ih later ids.2]
      exact fun same => ids.1 (List.mem_map.mpr ⟨row, later, (beq_iff_eq.mp same).symm⟩)

/-! ### Stacks -/

/-- All that holds of a stack but for its top. -/
structure Shelved (shelf : Shelf) (seq drawn : Nat) (versioning : Versioning) : Prop where
  distinct : Distinct shelf.rows seq drawn
  single : shelf.current.length ≤ 1
  newest : ∀ row ∈ shelf.current, ∀ old ∈ shelf.archived, old.seq < row.seq
  plain : versioning = .unversioned →
    shelf.archived = [] ∧ ∀ row ∈ shelf.current, row.versionId = "null"

/-- **The versions of a key are a stack**: without a current version, the newest is a marker. -/
structure Stacked (shelf : Shelf) (seq drawn : Nat) (versioning : Versioning) : Prop
    extends Shelved shelf seq drawn versioning where
  marked : shelf.current = [] → ∀ row ∈ shelf.archived,
    (∀ other ∈ shelf.archived, other.seq ≤ row.seq) → row.isDeleteMarker = true

theorem Stacked.rests {shelf : Shelf} {seq seq' drawn drawn' : Nat}
    {versioning versioning' : Versioning} (stacked : Stacked shelf seq drawn versioning)
    (later : seq ≤ seq') (more : drawn ≤ drawn')
    (plain : versioning' = .unversioned → versioning = .unversioned ∨ shelf.rows = []) :
    Stacked shelf seq' drawn' versioning' where
  distinct := stacked.distinct.mono later more
  single := stacked.single
  newest := stacked.newest
  marked := stacked.marked
  plain unversioned := by
    rcases plain unversioned with before | none
    · exact stacked.plain before
    · obtain ⟨archived, current⟩ := List.append_eq_nil_iff.mp none
      rw [List.map_eq_nil_iff] at current
      refine ⟨archived, fun row member => ?_⟩
      rw [current] at member
      cases member

/-! ### A new version -/

theorem Shelved.current_cases {shelf : Shelf} {seq drawn : Nat} {versioning : Versioning}
    (shelved : Shelved shelf seq drawn versioning) :
    shelf.current = [] ∨ ∃ row, shelf.current = [row] := by
  have single := shelved.single
  match shelf.current, single with
  | [], _ => exact Or.inl rfl
  | [row], _ => exact Or.inr ⟨row, rfl⟩

/-- What was current gives way: it is archived, or replaced under its id. -/
theorem shelf_displace {store : Store} {bucket key versionId : String} {replaces : Bool}
    {seq drawn : Nat} {versioning : Versioning}
    (shelved : Shelved (shelfOf store bucket key) seq drawn versioning)
    (fresh : versionId = "null" ∨
      ∀ row ∈ (shelfOf store bucket key).rows, row.versionId ≠ versionId)
    (plain : replaces = true → versionId = "null" ∧ versioning = .unversioned) :
    ∃ kept, shelfOf (displace store bucket key versionId replaces) bucket key =
        { archived := kept, current := [] } ∧
      kept.Sublist (shelfOf store bucket key).rows ∧
      ∀ row ∈ (shelfOf store bucket key).rows, row ∈ kept ∨
        (versionId = "null" ∧ row.versionId = "null") := by
  have info := currentInfo_eq store bucket key
  unfold displace
  rcases shelved.current_cases with empty | ⟨row, current⟩
  · rw [empty, List.head?_nil, Option.map_none] at info
    rw [info]
    refine ⟨_, Shelf.ext_iff'.mpr ⟨rfl, empty⟩, List.sublist_append_left _ _, fun row member => ?_⟩
    rw [Shelf.rows, empty, List.map_nil, List.append_nil] at member
    exact Or.inl member
  · rw [current, List.head?_cons, Option.map_some] at info
    rw [info]
    simp only
    split
    · rename_i gives
      have null : versionId = "null" ∧ row.versionId = "null" := by
        rcases gives with same | replaced
        · rcases fresh with null | other
          · exact ⟨null, (show row.versionId = versionId from same).trans null⟩
          · refine absurd same (other (live row) ?_)
            rw [Shelf.rows, current]
            simp
        · obtain ⟨null, unversioned⟩ := plain replaced
          exact ⟨null, (shelved.plain unversioned).2 row (by rw [current]; simp)⟩
      refine ⟨_, shelf_dropCurrent store bucket key, List.sublist_append_left _ _,
        fun old member => ?_⟩
      rw [Shelf.rows, current] at member
      rcases List.mem_append.mp member with archived | own
      · exact Or.inl archived
      · rw [List.map_singleton, List.mem_singleton] at own
        rw [own]
        exact Or.inr null
    · exact ⟨_, shelf_archiveCurrent shelved.distinct.ids, List.Sublist.refl _,
        fun _ member => Or.inl member⟩

/-- **The room for a new version**: nothing is current, and no version has its id. -/
theorem shelf_room {store : Store} {bucket key versionId : String} {replaces : Bool}
    {seq drawn : Nat} {versioning : Versioning}
    (shelved : Shelved (shelfOf store bucket key) seq drawn versioning)
    (fresh : versionId = "null" ∨
      ∀ row ∈ (shelfOf store bucket key).rows, row.versionId ≠ versionId)
    (plain : replaces = true → versionId = "null" ∧ versioning = .unversioned) :
    ∃ kept, shelfOf (dropNull (displace store bucket key versionId replaces) bucket key versionId)
        bucket key = { archived := kept, current := [] } ∧
      kept.Sublist (shelfOf store bucket key).rows ∧ (∀ row ∈ kept, row.versionId ≠ versionId) ∧
      ∀ row ∈ (shelfOf store bucket key).rows, row ∈ kept ∨
        (versionId = "null" ∧ row.versionId = "null") := by
  obtain ⟨kept, shelf, sub, stays⟩ := 
    @shelf_displace _ _ store bucket key versionId replaces _ _ _ shelved fresh plain
  unfold dropNull
  by_cases null : versionId = "null"
  · rw [if_pos null]
    refine ⟨kept.filter fun row => row.versionId != "null", ?_,
      List.filter_sublist.trans sub, fun row member => ?_, fun row member => ?_⟩
    · rw [shelf_dropVersion, shelf]
    · rw [null]
      exact bne_iff_ne.mp (List.mem_filter.mp member).2
    · by_cases own : row.versionId = "null"
      · exact Or.inr ⟨null, own⟩
      · rcases stays row member with kept | ⟨_, wrong⟩
        · exact Or.inl (List.mem_filter.mpr ⟨kept, bne_iff_ne.mpr own⟩)
        · exact absurd wrong own
  · rw [if_neg null]
    exact ⟨kept, shelf, sub, fun row member =>
      (fresh.resolve_left null) row (sub.subset member), stays⟩

/-- **A new current version on the stack.** -/
theorem Shelved.push {shelf : Shelf} {seq drawn drawn' : Nat} {versioning : Versioning}
    (shelved : Shelved shelf seq drawn versioning) {kept : List VersionRow} {row : ObjectRow}
    (sub : kept.Sublist shelf.rows) (fresh : ∀ old ∈ kept, old.versionId ≠ row.versionId)
    (more : drawn ≤ drawn') (next : row.seq = seq + 1)
    (named : row.versionId = "null" ∨ ∃ draw < drawn', row.versionId = S3External.newVersionId draw)
    (plain : versioning = .unversioned → row.versionId = "null") :
    Stacked { archived := kept, current := [row] } (seq + 1) drawn' versioning where
  distinct := ((shelved.distinct.sublist sub).mono (le_refl _) more).push next fresh named
  single := le_refl _
  newest current member old memberOld := by
    rw [List.mem_singleton.mp member, next]
    exact Nat.lt_succ_of_le (shelved.distinct.bound old (sub.subset memberOld))
  plain unversioned := by
    have null := plain unversioned
    obtain ⟨archived, names⟩ := shelved.plain unversioned
    refine ⟨List.eq_nil_iff_forall_not_mem.mpr fun old member => ?_, fun current member => ?_⟩
    · have there := sub.subset member
      rw [Shelf.rows, archived, List.nil_append] at there
      obtain ⟨current, memberCurrent, rfl⟩ := List.mem_map.mp there
      exact fresh _ member ((names current memberCurrent).trans null.symm)
    · rw [List.mem_singleton.mp member]
      exact null
  marked wrong := absurd wrong (List.cons_ne_nil _ _)

/-- **A delete marker on the stack.** -/
theorem Shelved.mark {shelf : Shelf} {seq drawn drawn' : Nat} {versioning : Versioning}
    (shelved : Shelved shelf seq drawn versioning) {kept : List VersionRow} {marker : VersionRow}
    (sub : kept.Sublist shelf.rows) (fresh : ∀ old ∈ kept, old.versionId ≠ marker.versionId)
    (more : drawn ≤ drawn') (next : marker.seq = seq + 1)
    (named : marker.versionId = "null" ∨
      ∃ draw < drawn', marker.versionId = S3External.newVersionId draw)
    (isMarker : marker.isDeleteMarker = true) (versioned : versioning ≠ .unversioned) :
    Stacked { archived := kept ++ [marker], current := [] } (seq + 1) drawn' versioning where
  distinct := by
    rw [Shelf.rows, List.map_nil, List.append_nil]
    exact ((shelved.distinct.sublist sub).mono (le_refl _) more).push next fresh named
  single := Nat.zero_le 1
  newest _ member := absurd member List.not_mem_nil
  plain unversioned := absurd unversioned versioned
  marked _ row member newest := by
    rcases List.mem_append.mp member with old | new
    · have past := shelved.distinct.bound row (sub.subset old)
      have top := newest marker (by simp)
      omega
    · rw [List.mem_singleton.mp new]
      exact isMarker

/-! ### Restoring the newest version -/

theorem restoreLatest_counts (store : Store) (bucket key : String) :
    (restoreLatest store bucket key).seq = store.seq ∧
      (restoreLatest store bucket key).drawn = store.drawn := by
  unfold restoreLatest
  cases latestArchived store bucket key with
  | none => exact ⟨rfl, rfl⟩
  | some latest =>
    simp only
    split
    · exact ⟨rfl, rfl⟩
    · split
      all_goals split
      all_goals exact ⟨rfl, rfl⟩

/-- The newest archived version becomes current. -/
theorem shelf_restored {store : Store} {bucket key : String} {row : VersionRow}
    (ids : ((shelfOf store bucket key).archived.map fun row => row.versionId).Nodup)
    (member : row ∈ (shelfOf store bucket key).archived)
    (none : (shelfOf store bucket key).current = []) :
    shelfOf (dropVersion { store with
        objects := store.objects ++ (store.versions.filter fun other =>
          other.isVersion bucket key row.versionId).map VersionRow.toObjectRow }
        bucket key row.versionId) bucket key =
      { archived := (shelfOf store bucket key).archived.filter fun other =>
          other.versionId != row.versionId
        current := [row.toObjectRow] } := by
  have own : (store.versions.filter fun other => other.isVersion bucket key row.versionId) =
      [row] := by
    rw [← filter_own member ids]
    show _ = (store.versions.filter _).filter _
    rw [List.filter_filter]
    refine List.filter_congr fun other _ => ?_
    rw [ObjectRow.isVersion, Bool.and_comm]
  rw [shelf_dropVersion]
  refine Shelf.ext_iff'.mpr ⟨rfl, ?_⟩
  show (store.objects ++ _).filter _ = _
  rw [own, List.map_singleton, List.filter_append]
  have empty : (store.objects.filter fun row => row.isFor bucket key) = [] := none
  rw [empty, List.nil_append]
  exact List.filter_eq_self.mpr fun other same => by
    rw [List.mem_singleton.mp same]
    exact mem_archived_isFor member

/-- **A shelf is a stack once the newest version is restored.** -/
theorem stacked_restoreLatest {store : Store} {bucket key : String} {seq drawn : Nat}
    {versioning : Versioning}
    (shelved : Shelved (shelfOf store bucket key) seq drawn versioning) :
    Stacked (shelfOf (restoreLatest store bucket key) bucket key) seq drawn versioning ∧
      (shelfOf (restoreLatest store bucket key) bucket key).rows.Perm
        (shelfOf store bucket key).rows := by
  have info := currentInfo_eq store bucket key
  unfold restoreLatest
  cases found : latestArchived store bucket key with
  | none =>
    have empty := latestArchived_none found
    refine ⟨⟨shelved, fun _ row member => ?_⟩, List.Perm.refl _⟩
    rw [empty] at member
    cases member
  | some latest =>
    obtain ⟨row, member, rfl, newest⟩ := latestArchived_some found
    simp only
    rcases shelved.current_cases with empty | ⟨current, only⟩
    · rw [empty, List.head?_nil, Option.map_none] at info
      have rows : (shelfOf store bucket key).rows = (shelfOf store bucket key).archived := by
        rw [Shelf.rows, empty, List.map_nil, List.append_nil]
      have distinct := shelved.distinct
      rw [rows] at distinct
      simp only [info, Option.any_none, Bool.false_eq_true, if_false, Option.isSome_none]
      by_cases marker : row.isDeleteMarker = true
      · rw [if_pos (show (infoFromRow _ _).isDeleteMarker = true from marker)]
        refine ⟨⟨shelved, fun _ top memberTop highest => ?_⟩, List.Perm.refl _⟩
        have equal : top.seq = row.seq := le_antisymm (newest top memberTop) (highest row member)
        rw [List.inj_on_of_nodup_map distinct.seqs memberTop member equal]
        exact marker
      · rw [if_neg (show ¬ (infoFromRow _ _).isDeleteMarker = true from marker)]
        have plain : row.isDeleteMarker = false := Bool.eq_false_iff.mpr marker
        have same : live row.toObjectRow = row := by
          rw [live, ← plain]
        have shelf := shelf_restored distinct.ids member empty
        change Stacked (shelfOf (dropVersion { store with
            objects := store.objects ++ (store.versions.filter fun other =>
              other.isVersion bucket key row.versionId).map VersionRow.toObjectRow }
            bucket key row.versionId) bucket key) seq drawn versioning ∧
          (shelfOf (dropVersion { store with
            objects := store.objects ++ (store.versions.filter fun other =>
              other.isVersion bucket key row.versionId).map VersionRow.toObjectRow }
            bucket key row.versionId) bucket key).rows.Perm (shelfOf store bucket key).rows
        rw [shelf, rows]
        have perm : (((shelfOf store bucket key).archived.filter fun other =>
            other.versionId != row.versionId) ++ [live row.toObjectRow]).Perm
            (shelfOf store bucket key).archived := by
          rw [same, ← filter_own member distinct.ids]
          exact List.perm_append_comm.trans
            (List.filter_append_perm (fun other : VersionRow => other.versionId == row.versionId) _)
        refine ⟨⟨⟨distinct.perm perm, le_refl _, fun top memberTop old memberOld => ?_,
          fun unversioned => ?_⟩, nofun⟩, perm⟩
        · rw [List.mem_singleton.mp memberTop]
          obtain ⟨stored, other⟩ := List.mem_filter.mp memberOld
          refine lt_of_le_of_ne (newest old stored) fun equal => bne_iff_ne.mp other ?_
          rw [List.inj_on_of_nodup_map distinct.seqs stored member equal]
        · rw [(shelved.plain unversioned).1] at member
          cases member
    · rw [only, List.head?_cons, Option.map_some] at info
      have older := shelved.newest current (by rw [only]; simp) row member
      rw [info, Option.any_some]
      split
      · refine ⟨⟨shelved, fun none => ?_⟩, List.Perm.refl _⟩
        rw [only] at none
        cases none
      · rename_i younger
        exact absurd (decide_eq_true older) younger

/-! ### Other keys -/

/-- **Rows come and go for one key.** -/
def Confined (bucket key : String) (before after : Store) : Prop :=
  ∀ other otherKey, ¬ (other = bucket ∧ otherKey = key) →
    shelfOf after other otherKey = shelfOf before other otherKey

namespace Confined

variable {bucket key : String} {before middle after : Store}

theorem refl (bucket key : String) (store : Store) : Confined bucket key store store :=
  fun _ _ _ => rfl

theorem trans (first : Confined bucket key before middle) (second : Confined bucket key middle after) :
    Confined bucket key before after :=
  fun other otherKey away => (second other otherKey away).trans (first other otherKey away)

end Confined

theorem isFor_away {row : ObjectRow} {bucket key other otherKey : String}
    (away : ¬ (other = bucket ∧ otherKey = key)) (own : row.isFor other otherKey = true) :
    row.isFor bucket key = false := by
  obtain ⟨inBucket, named⟩ := isFor_iff.mp own
  rw [Bool.eq_false_iff]
  intro wrong
  obtain ⟨inOther, namedOther⟩ := isFor_iff.mp wrong
  exact away ⟨inBucket.symm.trans inOther, named.symm.trans namedOther⟩

theorem filter_append_away {α : Type} {rows added : List α} {condition : α → Bool}
    (away : ∀ row ∈ added, ¬ condition row = true) :
    (rows ++ added).filter condition = rows.filter condition := by
  rw [List.filter_append, List.filter_eq_nil_iff.mpr away, List.append_nil]

theorem confined_dropCurrent (store : Store) (bucket key : String) :
    Confined bucket key store (dropCurrent store bucket key) := by
  intro other otherKey away
  refine Shelf.ext_iff'.mpr ⟨rfl, filter_filter_same fun row _ own => ?_⟩
  rw [isFor_away away own]
  rfl

theorem confined_dropVersion (store : Store) (bucket key versionId : String) :
    Confined bucket key store (dropVersion store bucket key versionId) := by
  intro other otherKey away
  refine Shelf.ext_iff'.mpr ⟨filter_filter_same fun row _ own => ?_, rfl⟩
  rw [ObjectRow.isVersion, isFor_away away own]
  rfl

theorem confined_addObject (store : Store) {row : ObjectRow} {bucket key : String}
    (own : row.isFor bucket key = true) : Confined bucket key store (addObject store row) := by
  intro other otherKey away
  refine Shelf.ext_iff'.mpr ⟨rfl, filter_append_away fun new member wrong => ?_⟩
  rw [List.mem_singleton.mp member] at wrong
  rw [isFor_away away wrong] at own
  cases own

theorem confined_addVersion (store : Store) {row : VersionRow} {bucket key : String}
    (own : row.isFor bucket key = true) : Confined bucket key store (addVersion store row) := by
  intro other otherKey away
  refine Shelf.ext_iff'.mpr ⟨filter_append_away fun new member wrong => ?_, rfl⟩
  rw [List.mem_singleton.mp member] at wrong
  rw [isFor_away away wrong] at own
  cases own

theorem confined_archiveCurrent (store : Store) (bucket key : String) :
    Confined bucket key store (archiveCurrent store bucket key) := by
  refine Confined.trans (fun other otherKey away => ?_) (confined_dropCurrent _ bucket key)
  refine Shelf.ext_iff'.mpr ⟨(filter_append_away fun row member wrong => ?_).trans
    (filter_filter_same fun row _ own => ?_), rfl⟩
  · obtain ⟨current, memberCurrent, rfl⟩ := List.mem_map.mp member
    have own := (List.mem_filter.mp memberCurrent).2
    rw [isFor_away away wrong] at own
    cases own
  · rw [Bool.not_eq_true', List.any_eq_false]
    intro current _ same
    rw [ObjectRow.isVersion, isFor_away away own] at same
    cases same

theorem confined_restoreLatest (store : Store) (bucket key : String) :
    Confined bucket key store (restoreLatest store bucket key) := by
  unfold restoreLatest
  cases latestArchived store bucket key with
  | none => exact Confined.refl bucket key store
  | some latest =>
    have archived : Confined bucket key store (if (currentInfo store bucket key).isSome then
        archiveCurrent store bucket key else store) := by
      split
      · exact confined_archiveCurrent store bucket key
      · exact Confined.refl bucket key store
    simp only
    split
    · exact Confined.refl bucket key store
    · split
      · exact archived
      · refine archived.trans (Confined.trans (fun other otherKey away => ?_)
          (confined_dropVersion _ bucket key latest.versionId))
        refine Shelf.ext_iff'.mpr ⟨rfl, filter_append_away fun row member wrong => ?_⟩
        obtain ⟨version, memberVersion, rfl⟩ := List.mem_map.mp member
        have own := isFor_iff.mpr (isVersion_iff.mp (List.mem_filter.mp memberVersion).2).1
        rw [isFor_away away wrong] at own
        cases own

theorem confined_room (store : Store) (bucket key versionId : String) (replaces : Bool) :
    Confined bucket key store
      (dropNull (displace store bucket key versionId replaces) bucket key versionId) := by
  have displaced : Confined bucket key store (displace store bucket key versionId replaces) := by
    unfold displace
    split
    · exact Confined.refl bucket key store
    · split
      · exact confined_dropCurrent store bucket key
      · exact confined_archiveCurrent store bucket key
  refine displaced.trans ?_
  unfold dropNull
  split
  · exact confined_dropVersion _ bucket key "null"
  · exact Confined.refl bucket key _

/-! ### What a call does to a shelf -/

/-- `configGet(bucket, "versioning")`, parsed. -/
def configured (store : Store) (bucket : String) : Versioning :=
  Versioning.parse ((configGet store bucket "versioning").getD "")

/-- **The versions of the key are a stack.** -/
def StackedAt (store : Store) (bucket key : String) : Prop :=
  Stacked (shelfOf store bucket key) store.seq store.drawn (configured store bucket)

/-- The version is still there, but for its tags. -/
def Remains (row : VersionRow) (store : Store) (bucket key : String) : Prop :=
  ∃ later ∈ (shelfOf store bucket key).rows, later = { row with tags := later.tags }

theorem Remains.of_mem {row : VersionRow} {store : Store} {bucket key : String}
    (member : row ∈ (shelfOf store bucket key).rows) : Remains row store bucket key :=
  ⟨row, member, rfl⟩

/-- The call names the version, or puts a new version `null` in its place. -/
def Call.Takes (call : Call) (store : Store) (bucket key : String) (row : VersionRow) : Prop :=
  match call with
  | .deleteObject other otherKey (some versionId) =>
    (other = bucket ∧ otherKey = key) ∧ row.versionId = versionId
  | .deleteObject other otherKey none =>
    (other = bucket ∧ otherKey = key) ∧ configured store bucket ≠ .enabled ∧ row.versionId = "null"
  | .writeObject other otherKey _ =>
    (other = bucket ∧ otherKey = key) ∧ configured store bucket ≠ .enabled ∧ row.versionId = "null"
  | .completeUpload other otherKey _ _ =>
    (other = bucket ∧ otherKey = key) ∧ configured store bucket ≠ .enabled ∧ row.versionId = "null"
  | _ => False

/-- **The key after a call**: still a stack, without the versions that the call takes. -/
structure Advance (call : Call) (bucket key : String) (before after : Store) : Prop where
  stacked : StackedAt after bucket key
  remains : ∀ row ∈ (shelfOf before bucket key).rows,
    Remains row after bucket key ∨ call.Takes before bucket key row

/-- The shelf is as it was. -/
theorem Advance.of_same {call : Call} {bucket key : String} {before after : Store}
    (stacked : StackedAt before bucket key)
    (shelf : shelfOf after bucket key = shelfOf before bucket key)
    (later : before.seq ≤ after.seq) (more : before.drawn ≤ after.drawn)
    (plain : configured after bucket = .unversioned →
      configured before bucket = .unversioned ∨ (shelfOf before bucket key).rows = []) :
    Advance call bucket key before after where
  stacked := by
    unfold StackedAt
    rw [shelf]
    exact Stacked.rests stacked later more plain
  remains row member := Or.inl (Remains.of_mem (by rwa [shelf]))

/-- The id of a new version is not there yet. -/
theorem versionIdFor_fresh {rows : List VersionRow} {store : Store} (laws : VersionIdLaws ‹S3External›)
    (distinct : Distinct rows store.seq store.drawn) (versioning : Versioning) :
    versionIdFor store versioning = "null" ∨
      ∀ row ∈ rows, row.versionId ≠ versionIdFor store versioning := by
  unfold versionIdFor
  split
  · refine Or.inr fun row member same => ?_
    rcases distinct.drawn row member with null | ⟨draw, before, drawn⟩
    · exact laws.notNull store.drawn (same.symm.trans null)
    · have equal := laws.fresh (drawn.symm.trans same)
      omega
  · exact Or.inl rfl

theorem versionIdFor_named (store : Store) (versioning : Versioning) :
    versionIdFor store versioning = "null" ∨
      ∃ draw < store.drawn + 1, versionIdFor store versioning = S3External.newVersionId draw := by
  unfold versionIdFor
  split
  · exact Or.inr ⟨store.drawn, Nat.lt_succ_self _, rfl⟩
  · exact Or.inl rfl

theorem versionIdFor_null {store : Store} {versioning : Versioning}
    (laws : VersionIdLaws ‹S3External›) :
    versionIdFor store versioning = "null" ↔ versioning ≠ .enabled := by
  unfold versionIdFor
  split
  · rename_i enabled
    exact ⟨fun same => absurd same (laws.notNull _), fun other => absurd enabled other⟩
  · rename_i other
    exact ⟨fun _ => other, fun _ => rfl⟩

/-! ### Writes -/

theorem configured_congr {before after : Store} (same : after.configs = before.configs)
    (bucket : String) : configured after bucket = configured before bucket := by
  unfold configured configGet
  rw [same]

theorem versioningOf_configured {store : Store} {bucket : String} {versioning : Versioning}
    (done : versioningOf store bucket = .ok versioning) : versioning = configured store bucket :=
  (versioningOf_ok done).2

theorem room_counts (store : Store) (bucket key versionId : String) (replaces : Bool) :
    (dropNull (displace store bucket key versionId replaces) bucket key versionId).seq = store.seq ∧
      (dropNull (displace store bucket key versionId replaces) bucket key versionId).drawn =
        store.drawn := by
  unfold dropNull displace
  repeat' split
  all_goals exact ⟨rfl, rfl⟩

/-- **What a write does to the shelf of its key.** -/
theorem advance_writeObject {store after : Store} {bucket key : String} {obj : NewObject} {now : Int}
    {result : WriteResult} {call : Call} (laws : VersionIdLaws ‹S3External›)
    (done : writeObjectTx store bucket key obj now = .ok (result, after))
    (stacked : StackedAt store bucket key)
    (takes : ∀ row : VersionRow, configured store bucket ≠ .enabled → row.versionId = "null" →
      call.Takes store bucket key row) :
    Advance call bucket key store after := by
  have configs := (moves_writeObject done).2.configs
  obtain ⟨versioning, row, here, ⟨inBucket, named, id, seq, _⟩, rfl⟩ := writeObjectTx_ok done
  have same := versioningOf_configured here
  have own : row.isFor bucket key = true := isFor_iff.mpr ⟨inBucket, named⟩
  have shelved := stacked.toShelved
  obtain ⟨kept, shelf, sub, fresh, stays⟩ :=
    @shelf_room _ _ (drawOne (nextSeq store)) bucket key (versionIdFor store versioning)
      (versioning == .unversioned) store.seq store.drawn (configured store bucket) shelved
      (versionIdFor_fresh laws stacked.distinct versioning) fun replaces => by
        have unversioned : versioning = .unversioned := beq_iff_eq.mp replaces
        exact ⟨(versionIdFor_null laws).mpr (by rw [unversioned]; nofun), same ▸ unversioned⟩
  have whole : shelfOf (addObject (dropNull (displace (drawOne (nextSeq store)) bucket key
      (versionIdFor store versioning) (versioning == .unversioned)) bucket key
        (versionIdFor store versioning)) row) bucket key =
      { archived := kept, current := [row] } := by
    rw [shelf_addObject own, shelf]
    rfl
  refine ⟨?_, fun old member => ?_⟩
  · unfold StackedAt
    rw [whole, configured_congr configs]
    have counts := room_counts (drawOne (nextSeq store)) bucket key (versionIdFor store versioning)
      (versioning == .unversioned)
    show Stacked _ (dropNull _ bucket key _).seq (dropNull _ bucket key _).drawn _
    rw [counts.1, counts.2]
    refine shelved.push sub (by rw [id]; exact fresh) (Nat.le_succ _) seq ?_ fun unversioned => ?_
    · rw [id]
      exact versionIdFor_named store versioning
    · rw [id, versionIdFor_null laws, same, unversioned]
      nofun
  · rcases stays old member with kept | ⟨null, oldNull⟩
    · exact Or.inl (Remains.of_mem (by rw [whole]; exact List.mem_append_left _ kept))
    · exact Or.inr (takes old (same ▸ (versionIdFor_null laws).mp null) oldNull)

/-- The delete marker that is stored. -/
theorem markDeleted_made (store : Store) (bucket key : String) (versioning : Versioning) (now : Int) :
    ∃ marker : VersionRow, (markDeleted store bucket key versioning now).2 =
        addVersion (nextSeq (dropNull (displace (drawOne store) bucket key
          (versionIdFor store versioning) false) bucket key (versionIdFor store versioning))) marker ∧
      marker.isDeleteMarker = true ∧ marker.isFor bucket key = true ∧
      marker.versionId = versionIdFor store versioning ∧ marker.seq = store.seq + 1 := by
  refine ⟨_, rfl, rfl, isFor_iff.mpr ⟨rfl, rfl⟩, rfl, ?_⟩
  show (dropNull _ bucket key _).seq + 1 = _
  rw [(room_counts (drawOne store) bucket key (versionIdFor store versioning) false).1]
  rfl

/-- **What a delete marker does to the shelf of its key.** -/
theorem advance_markDeleted {store : Store} {bucket key : String} {now : Int} {call : Call}
    (laws : VersionIdLaws ‹S3External›) (stacked : StackedAt store bucket key)
    (versioned : configured store bucket ≠ .unversioned)
    (takes : ∀ row : VersionRow, configured store bucket ≠ .enabled → row.versionId = "null" →
      call.Takes store bucket key row) :
    Advance call bucket key store
      (markDeleted store bucket key (configured store bucket) now).2 := by
  have configs :=
    (moves_markDeleted store bucket key (configured store bucket) now).configs
  have shelved := stacked.toShelved
  obtain ⟨kept, shelf, sub, fresh, stays⟩ :=
    @shelf_room _ _ (drawOne store) bucket key (versionIdFor store (configured store bucket)) false
      store.seq store.drawn (configured store bucket) shelved
      (versionIdFor_fresh laws stacked.distinct _) nofun
  have counts := room_counts (drawOne store) bucket key
    (versionIdFor store (configured store bucket)) false
  obtain ⟨marker, made, isMarker, own, id, seq⟩ :=
    markDeleted_made store bucket key (configured store bucket) now
  have whole : shelfOf (markDeleted store bucket key (configured store bucket) now).2 bucket key =
      { archived := kept ++ [marker], current := [] } := by
    rw [made, shelf_addVersion own]
    show Shelf.mk ((shelfOf (dropNull _ bucket key _) bucket key).archived ++ [marker])
      (shelfOf (dropNull _ bucket key _) bucket key).current = _
    rw [shelf]
  refine ⟨?_, fun old member => ?_⟩
  · unfold StackedAt
    rw [whole, configured_congr configs, made]
    show Stacked _ ((dropNull _ bucket key _).seq + 1) (dropNull _ bucket key _).drawn _
    rw [counts.1, counts.2]
    refine shelved.mark sub (by rw [id]; exact fresh) (Nat.le_succ _) seq ?_ isMarker versioned
    rw [id]
    exact versionIdFor_named store _
  · rcases stays old member with kept | ⟨null, oldNull⟩
    · refine Or.inl (Remains.of_mem ?_)
      rw [whole]
      exact List.mem_append_left _ (List.mem_append_left _ kept)
    · exact Or.inr (takes old ((versionIdFor_null laws).mp null) oldNull)

/-! ### Deletions -/

/-- A version of the shelf, by its id. -/
theorem mem_rows {shelf : Shelf} {row : VersionRow} :
    row ∈ shelf.rows ↔ row ∈ shelf.archived ∨ ∃ current ∈ shelf.current, live current = row := by
  rw [Shelf.rows, List.mem_append, List.mem_map]

theorem Shelved.of_sublist {shelf after : Shelf} {seq drawn : Nat} {versioning : Versioning}
    (shelved : Shelved shelf seq drawn versioning) (archived : after.archived.Sublist shelf.archived)
    (current : after.current.Sublist shelf.current) : Shelved after seq drawn versioning where
  distinct := shelved.distinct.sublist (archived.append (current.map live))
  single := le_trans current.length_le shelved.single
  newest row member old memberOld :=
    shelved.newest row (current.subset member) old (archived.subset memberOld)
  plain unversioned := by
    obtain ⟨none, names⟩ := shelved.plain unversioned
    refine ⟨?_, fun row member => names row (current.subset member)⟩
    rw [none] at archived
    exact List.sublist_nil.mp archived

/-- **A version is deleted**, and the newest one that is left restored. -/
theorem advance_deleteVersion {store : Store} {bucket key versionId : String}
    {versioning : Versioning} (stacked : StackedAt store bucket key) :
    Advance (.deleteObject bucket key (some versionId)) bucket key store
      (deleteVersion store bucket key versionId versioning).2 := by
  have shelved := stacked.toShelved
  have info := currentInfo_eq store bucket key
  -- the shelf without the version, and the one on which the newest version is restored
  have restores : ∀ removed : Store, removed.seq = store.seq → removed.drawn = store.drawn →
      removed.configs = store.configs →
      Shelved (shelfOf removed bucket key) store.seq store.drawn (configured store bucket) →
      (∀ row ∈ (shelfOf store bucket key).rows, row ∈ (shelfOf removed bucket key).rows ∨
        row.versionId = versionId) →
      Advance (.deleteObject bucket key (some versionId)) bucket key store
        (nextSeq (restoreLatest removed bucket key)) := by
    intro removed seq drawn configs shelvedToo stays
    obtain ⟨restored, perm⟩ := stacked_restoreLatest shelvedToo
    obtain ⟨sameSeq, sameDrawn⟩ := restoreLatest_counts removed bucket key
    have sameConfigs := (moves_restoreLatest removed bucket key).configs.trans configs
    refine ⟨?_, fun row member => ?_⟩
    · show Stacked (shelfOf (restoreLatest removed bucket key) bucket key)
        ((restoreLatest removed bucket key).seq + 1) (restoreLatest removed bucket key).drawn
        (configured (restoreLatest removed bucket key) bucket)
      rw [sameSeq, sameDrawn, seq, drawn, configured_congr sameConfigs]
      exact restored.rests (Nat.le_succ _) (le_refl _) Or.inl
    · rcases stays row member with left | gone
      · exact Or.inl (Remains.of_mem (perm.symm.subset left))
      · exact Or.inr ⟨⟨rfl, rfl⟩, gone⟩
  unfold deleteVersion
  simp only
  by_cases isCurrent : ((currentInfo store bucket key).any fun info =>
      info.versionId == versionId) = true
  · rw [if_pos isCurrent]
    have shelf := shelf_dropCurrent store bucket key
    refine restores _ rfl rfl rfl ?_ fun row member => ?_
    · rw [shelf]
      exact shelved.of_sublist (List.Sublist.refl _) (List.nil_sublist _)
    · rw [shelf]
      rcases mem_rows.mp member with archived | ⟨current, there, rfl⟩
      · exact Or.inl (mem_rows.mpr (Or.inl archived))
      · rcases shelved.current_cases with empty | ⟨only, single⟩
        · rw [empty] at there
          cases there
        · rw [single] at there info
          rw [info] at isCurrent
          rw [List.mem_singleton.mp there]
          exact Or.inr (beq_iff_eq.mp isCurrent)
  · rw [if_neg isCurrent]
    by_cases archived : (archivedInfo store bucket key versionId).isSome = true
    · rw [if_pos archived]
      have shelf := shelf_dropVersion store bucket key versionId
      refine restores _ rfl rfl rfl ?_ fun row member => ?_
      · rw [shelf]
        exact shelved.of_sublist List.filter_sublist (List.Sublist.refl _)
      · rw [shelf]
        by_cases own : row.versionId = versionId
        · exact Or.inr own
        · refine Or.inl (mem_rows.mpr ?_)
          exact (mem_rows.mp member).imp_left fun there =>
            List.mem_filter.mpr ⟨there, bne_iff_ne.mpr own⟩
    · rw [if_neg archived]
      exact Advance.of_same stacked rfl (Nat.le_succ _) (le_refl _) Or.inl

/-- **A deletion of the key.** -/
theorem advance_deleteObject {store after : Store} {bucket key : String} {versionId : Option String}
    {now : Int} {outcome : DeleteOutcome} (laws : VersionIdLaws ‹S3External›)
    (done : deleteObject store bucket key versionId now = .ok (outcome, after))
    (stacked : StackedAt store bucket key) :
    Advance (.deleteObject bucket key versionId) bucket key store after := by
  obtain ⟨versioning, here, rest⟩ := bind_ok done
  have same := versioningOf_configured here
  subst same
  cases versionId with
  | some versionId =>
    have equal := congrArg Prod.snd (Except.ok.inj rest)
    rw [← show _ = after from equal]
    exact advance_deleteVersion stacked
  | none =>
    simp only at rest
    split at rest
    · rename_i unversioned
      cases rest
      have shelf := shelf_dropCurrent store bucket key
      obtain ⟨none, names⟩ := stacked.plain unversioned
      refine ⟨?_, fun row member => ?_⟩
      · show Stacked (shelfOf (dropCurrent store bucket key) bucket key) (store.seq + 1) store.drawn
          (configured store bucket)
        rw [shelf]
        have shelved : Shelved { shelfOf store bucket key with current := [] } store.seq store.drawn
            (configured store bucket) :=
          stacked.toShelved.of_sublist (List.Sublist.refl _) (List.nil_sublist _)
        refine Stacked.rests ⟨shelved, fun _ row member => ?_⟩ (Nat.le_succ _) (le_refl _) Or.inl
        rw [show (shelfOf store bucket key).archived = [] from none] at member
        cases member
      · rcases mem_rows.mp member with archived | ⟨current, there, rfl⟩
        · rw [none] at archived
          cases archived
        · exact Or.inr ⟨⟨rfl, rfl⟩, by rw [unversioned]; nofun, names current there⟩
    · rename_i versioned
      have equal := congrArg Prod.snd (Except.ok.inj rest)
      rw [← show _ = after from equal]
      exact advance_markDeleted laws stacked versioned fun row other null =>
        ⟨⟨rfl, rfl⟩, other, null⟩

/-! ### Tags -/

/-- The same version ids and sequence numbers. -/
theorem Distinct.of_pairs {rows other : List VersionRow} {seq drawn : Nat}
    (distinct : Distinct rows seq drawn)
    (same : other.map (fun row => (row.versionId, row.seq)) =
      rows.map fun row => (row.versionId, row.seq)) : Distinct other seq drawn := by
  have known : ∀ row ∈ other, ∃ old ∈ rows, old.versionId = row.versionId ∧ old.seq = row.seq := by
    intro row member
    have pair := List.mem_map_of_mem (f := fun row : VersionRow => (row.versionId, row.seq)) member
    rw [same] at pair
    obtain ⟨old, memberOld, equal⟩ := List.mem_map.mp pair
    exact ⟨old, memberOld, Prod.mk.inj equal⟩
  refine ⟨?_, ?_, fun row member => ?_, fun row member => ?_⟩
  · have ids := congrArg (List.map Prod.fst) same
    rw [List.map_map, List.map_map] at ids
    exact (congrArg List.Nodup ids).mpr distinct.ids
  · have seqs := congrArg (List.map Prod.snd) same
    rw [List.map_map, List.map_map] at seqs
    exact (congrArg List.Nodup seqs).mpr distinct.seqs
  · obtain ⟨old, memberOld, _, seqs⟩ := known row member
    rw [← seqs]
    exact distinct.bound old memberOld
  · obtain ⟨old, memberOld, ids, _⟩ := known row member
    rw [← ids]
    exact distinct.drawn old memberOld

/-- The row with new tags, if it is touched. -/
def retag (touched : ObjectRow → Bool) (tags : Tags) (row : ObjectRow) : ObjectRow :=
  if touched row then { row with tags } else row

def retagVersion (touched : ObjectRow → Bool) (tags : Tags) (row : VersionRow) : VersionRow :=
  if touched row.toObjectRow then { row with tags } else row

theorem retag_eq (touched : ObjectRow → Bool) (tags : Tags) (row : ObjectRow) :
    retag touched tags row = { row with tags := (retag touched tags row).tags } := by
  unfold retag
  split
  all_goals rfl

theorem retagVersion_eq (touched : ObjectRow → Bool) (tags : Tags) (row : VersionRow) :
    retagVersion touched tags row = { row with tags := (retagVersion touched tags row).tags } := by
  unfold retagVersion
  split
  all_goals rfl

/-- The versions with new tags are a stack. -/
theorem Stacked.retagged {shelf : Shelf} {seq drawn : Nat} {versioning : Versioning}
    (stacked : Stacked shelf seq drawn versioning) (touched : ObjectRow → Bool) (tags : Tags) :
    Stacked { archived := shelf.archived.map (retagVersion touched tags)
              current := shelf.current.map (retag touched tags) } seq drawn versioning := by
  have seqOf : ∀ row, (retag touched tags row).seq = row.seq := fun row => by rw [retag_eq]
  have idOf : ∀ row, (retag touched tags row).versionId = row.versionId := fun row => by
    rw [retag_eq]
  have seqOfVersion : ∀ row, (retagVersion touched tags row).seq = row.seq := fun row => by
    rw [retagVersion_eq]
  have idOfVersion : ∀ row, (retagVersion touched tags row).versionId = row.versionId :=
    fun row => by rw [retagVersion_eq]
  have markerOf : ∀ row, (retagVersion touched tags row).isDeleteMarker = row.isDeleteMarker :=
    fun row => by rw [retagVersion_eq]
  refine ⟨⟨stacked.distinct.of_pairs ?_, ?_, ?_, fun unversioned => ?_⟩, fun none row member top => ?_⟩
  · simp [Shelf.rows, Function.comp_def, live, seqOf, idOf, seqOfVersion, idOfVersion]
  · rw [List.length_map]
    exact stacked.single
  · intro row member old memberOld
    obtain ⟨current, there, rfl⟩ := List.mem_map.mp member
    obtain ⟨version, thereToo, rfl⟩ := List.mem_map.mp memberOld
    rw [seqOf, seqOfVersion]
    exact stacked.newest current there version thereToo
  · obtain ⟨archived, names⟩ := stacked.plain unversioned
    refine ⟨by rw [archived]; rfl, fun row member => ?_⟩
    obtain ⟨current, there, rfl⟩ := List.mem_map.mp member
    exact (idOf current).trans (names current there)
  · obtain ⟨version, there, rfl⟩ := List.mem_map.mp member
    rw [markerOf]
    refine stacked.marked (List.map_eq_nil_iff.mp none) version there fun other thereToo => ?_
    have below := top _ (List.mem_map_of_mem thereToo)
    rwa [seqOfVersion, seqOfVersion] at below

/-- **New tags leave the versions as they are, but for the tags.** -/
theorem advance_setObjectTags {store after : Store} {bucket key : String}
    {versionId : Option String} {tags : Tags} {info : ObjectInfo} {call : Call}
    (done : setObjectTags store bucket key versionId tags = .ok (info, after))
    (other otherKey : String) (stacked : StackedAt store other otherKey) :
    Advance call other otherKey store after := by
  obtain ⟨_, _, rest⟩ := bind_ok done
  cases rest
  let touched := fun row : ObjectRow =>
    row.isVersion bucket key info.versionId && row.seq == info.seq
  have shelf : shelfOf { store with
      objects := store.objects.map (retag touched tags)
      versions := store.versions.map (retagVersion touched tags) } other otherKey =
      { archived := (shelfOf store other otherKey).archived.map (retagVersion touched tags)
        current := (shelfOf store other otherKey).current.map (retag touched tags) } := by
    refine Shelf.ext_iff'.mpr ⟨?_, ?_⟩
    · refine (List.filter_map ..).trans (congrArg _ (List.filter_congr fun row _ => ?_))
      show ObjectRow.isFor (retagVersion touched tags row).toObjectRow other otherKey = _
      rw [retagVersion_eq]
      rfl
    · refine (List.filter_map ..).trans (congrArg _ (List.filter_congr fun row _ => ?_))
      show ObjectRow.isFor (retag touched tags row) other otherKey = _
      rw [retag_eq]
      rfl
  refine ⟨?_, fun row member => Or.inl ?_⟩
  · show Stacked (shelfOf { store with
      objects := store.objects.map (retag touched tags)
      versions := store.versions.map (retagVersion touched tags) } other otherKey) _ _ _
    rw [shelf]
    exact stacked.retagged touched tags
  · show ∃ later ∈ (shelfOf { store with
      objects := store.objects.map (retag touched tags)
      versions := store.versions.map (retagVersion touched tags) } other otherKey).rows, _
    rw [shelf]
    rcases mem_rows.mp member with archived | ⟨current, there, rfl⟩
    · exact ⟨_, mem_rows.mpr (Or.inl (List.mem_map_of_mem archived)), retagVersion_eq ..⟩
    · refine ⟨_, mem_rows.mpr (Or.inr ⟨_, List.mem_map_of_mem there, rfl⟩), ?_⟩
      rw [retag_eq]
      rfl

/-! ### Configurations -/

/-- The call configures the versioning as requests do: it is enabled or suspended. -/
def Call.Configures : Call → Prop
  | .putConfig _ kind body => kind = "versioning" → body = "Enabled" ∨ body = "Suspended"
  | .deleteConfig _ kind => kind ≠ "versioning"
  | _ => True

theorem configured_deleteConfig {store after : Store} {bucket kind : String}
    (done : deleteConfig store bucket kind = .ok after) (other : kind ≠ "versioning")
    (name : String) : configured after name = configured store name := by
  obtain ⟨_, _, rest⟩ := bind_ok done
  cases rest
  unfold configured configGet
  rw [find_filter_same fun row _ selected => ?_]
  rw [Bool.and_eq_true, beq_iff_eq, beq_iff_eq] at selected
  simp [selected.2, Ne.symm other]

theorem configured_putConfig {store after : Store} {bucket kind body : String}
    (done : putConfig store bucket kind body = .ok after)
    (configures : kind = "versioning" → body = "Enabled" ∨ body = "Suspended") (name : String)
    (unversioned : configured after name = .unversioned) :
    configured store name = .unversioned := by
  obtain ⟨_, _, rest⟩ := bind_ok done
  cases rest
  -- a row that the call writes does not say that the bucket is unversioned
  have versioned : bucket = name ∧ kind = "versioning" → Versioning.parse body ≠ .unversioned := by
    rintro ⟨_, same⟩
    rcases configures same with rfl | rfl
    all_goals decide
  unfold configured configGet at unversioned ⊢
  simp only at unversioned
  by_cases same : bucket = name ∧ kind = "versioning"
  · refine absurd unversioned ?_
    obtain ⟨rfl, rfl⟩ := same
    split
    · rename_i there
      have own : ((fun row : ConfigRow => row.bucket == bucket && row.kind == "versioning") ∘
          fun row : ConfigRow => if row.bucket == bucket && row.kind == "versioning" then
            { row with body } else row) =
          fun row : ConfigRow => row.bucket == bucket && row.kind == "versioning" := by
        funext row
        simp only [Function.comp_apply]
        split
        · rfl
        · rfl
      rw [List.find?_map, own]
      obtain ⟨row, found⟩ := Option.isSome_iff_exists.mp (List.find?_isSome.mpr
        (List.any_eq_true.mp there))
      have hit := List.find?_some found
      rw [found, Option.map_some]
      simp only [hit, if_true]
      exact versioned ⟨rfl, rfl⟩
    · rename_i absent
      rw [List.find?_append, List.find?_eq_none.mpr fun row member hit =>
        absent (List.any_eq_true.mpr ⟨row, member, hit⟩)]
      simp only [Option.none_or, List.find?_cons, beq_self_eq_true, Bool.and_self]
      exact versioned ⟨rfl, rfl⟩
  · rw [← unversioned]
    congr 3
    have missed : ∀ row : ConfigRow, (row.bucket == name && row.kind == "versioning") = true →
        ¬ (row.bucket == bucket && row.kind == kind) = true := by
      intro row selected hit
      rw [Bool.and_eq_true, beq_iff_eq, beq_iff_eq] at selected hit
      exact same ⟨hit.1.symm.trans selected.1, hit.2.symm.trans selected.2⟩
    split
    · symm
      refine find_map_same (fun row _ => ?_) fun row _ selected => if_neg (missed row selected)
      split
      all_goals rfl
    · rw [List.find?_append]
      have miss : ((bucket == name) && (kind == "versioning")) = false := by
        rw [Bool.eq_false_iff]
        intro wrong
        rw [Bool.and_eq_true, beq_iff_eq, beq_iff_eq] at wrong
        exact same wrong
      simp [miss]

/-- A bucket that is deleted has no versions, and the others keep their configuration. -/
theorem configured_deleteBucket {store after : Store} {name : String}
    (done : deleteBucket store name = .ok after) (bucket key : String) :
    configured after bucket = configured store bucket ∨ (shelfOf store bucket key).rows = [] := by
  obtain ⟨_, _, rest⟩ := bind_ok done
  obtain ⟨_, empty, rest⟩ := bind_ok rest
  cases rest
  rw [rejectIf_ok, gt_iff_lt, not_lt, Nat.le_zero, Nat.add_eq_zero_iff, List.length_eq_zero_iff,
    List.length_eq_zero_iff, List.filter_eq_nil_iff, List.filter_eq_nil_iff] at empty
  by_cases same : bucket = name
  · subst same
    refine Or.inr (List.append_eq_nil_iff.mpr ⟨?_, List.map_eq_nil_iff.mpr ?_⟩)
    · exact List.filter_eq_nil_iff.mpr fun row member own =>
        empty.2 row member (beq_iff_eq.mpr (isFor_iff.mp own).1)
    · exact List.filter_eq_nil_iff.mpr fun row member own =>
        empty.1 row member (beq_iff_eq.mpr (isFor_iff.mp own).1)
  · refine Or.inl ?_
    unfold configured configGet
    rw [find_filter_same fun row _ selected => ?_]
    rw [Bool.and_eq_true, beq_iff_eq, beq_iff_eq] at selected
    simp [selected.1, same]

/-! ### Every call -/

/-- The counters do not go down, and the rows of other keys stay. -/
structure Elsewhere (bucket key : String) (before after : Store) : Prop where
  confined : Confined bucket key before after
  later : before.seq ≤ after.seq
  more : before.drawn ≤ after.drawn
  configs : after.configs = before.configs

theorem elsewhere_writeObject {store after : Store} {bucket key : String} {obj : NewObject}
    {now : Int} {result : WriteResult}
    (done : writeObjectTx store bucket key obj now = .ok (result, after)) :
    Elsewhere bucket key store after := by
  have configs := (moves_writeObject done).2.configs
  obtain ⟨versioning, row, here, ⟨inBucket, named, id, seq, _⟩, rfl⟩ := writeObjectTx_ok done
  have counts := room_counts (drawOne (nextSeq store)) bucket key (versionIdFor store versioning)
    (versioning == .unversioned)
  refine ⟨?_, ?_, ?_, configs⟩
  · exact Confined.trans (fun _ _ _ => rfl : Confined bucket key store (drawOne (nextSeq store)))
      ((confined_room _ bucket key _ _).trans
        (confined_addObject _ (isFor_iff.mpr ⟨inBucket, named⟩)))
  · exact le_of_le_of_eq (Nat.le_succ store.seq) counts.1.symm
  · exact le_of_le_of_eq (Nat.le_succ store.drawn) counts.2.symm

theorem elsewhere_deleteObject {store after : Store} {bucket key : String}
    {versionId : Option String} {now : Int} {outcome : DeleteOutcome}
    (done : deleteObject store bucket key versionId now = .ok (outcome, after)) :
    Elsewhere bucket key store after := by
  have configs := (moves_deleteObject done).2.configs
  obtain ⟨versioning, here, rest⟩ := bind_ok done
  cases versionId with
  | some versionId =>
    have equal := congrArg Prod.snd (Except.ok.inj rest)
    have same : (deleteVersion store bucket key versionId versioning).2 = after := equal
    rw [← same] at configs ⊢
    have kept : ∀ removed : Store, Confined bucket key store removed → removed.seq = store.seq →
        removed.drawn = store.drawn →
        Confined bucket key store (nextSeq (restoreLatest removed bucket key)) ∧
          store.seq ≤ (nextSeq (restoreLatest removed bucket key)).seq ∧
          store.drawn ≤ (nextSeq (restoreLatest removed bucket key)).drawn := by
      intro removed confined seq drawn
      obtain ⟨sameSeq, sameDrawn⟩ := restoreLatest_counts removed bucket key
      refine ⟨confined.trans (confined_restoreLatest removed bucket key), ?_, ?_⟩
      · show store.seq ≤ (restoreLatest removed bucket key).seq + 1
        omega
      · show store.drawn ≤ (restoreLatest removed bucket key).drawn
        omega
    suffices all : Confined bucket key store (deleteVersion store bucket key versionId versioning).2 ∧
        store.seq ≤ (deleteVersion store bucket key versionId versioning).2.seq ∧
        store.drawn ≤ (deleteVersion store bucket key versionId versioning).2.drawn from
      ⟨all.1, all.2.1, all.2.2, configs⟩
    unfold deleteVersion
    simp only
    split
    · exact kept _ (confined_dropCurrent store bucket key) rfl rfl
    · split
      · exact kept _ (confined_dropVersion store bucket key versionId) rfl rfl
      · exact ⟨Confined.refl bucket key store, Nat.le_succ _, le_refl _⟩
  | none =>
    simp only at rest
    split at rest
    · cases rest
      exact ⟨confined_dropCurrent store bucket key, Nat.le_succ _, le_refl _, configs⟩
    · have equal := congrArg Prod.snd (Except.ok.inj rest)
      have same : (markDeleted store bucket key versioning now).2 = after := equal
      rw [← same] at configs ⊢
      have counts := room_counts (drawOne store) bucket key (versionIdFor store versioning) false
      refine ⟨?_, ?_, ?_, configs⟩
      · obtain ⟨marker, made, _, own, _⟩ := markDeleted_made store bucket key versioning now
        rw [made]
        exact Confined.trans (fun _ _ _ => rfl : Confined bucket key store (drawOne store))
          ((confined_room _ bucket key _ _).trans
            (Confined.trans (fun _ _ _ => rfl) (confined_addVersion _ own)))
      · show store.seq ≤ (dropNull _ bucket key _).seq + 1
        rw [counts.1]
        exact Nat.le_succ _
      · show store.drawn ≤ (dropNull _ bucket key _).drawn
        rw [counts.2]
        exact Nat.le_succ _

theorem Elsewhere.advance {call : Call} {bucket key other otherKey : String} {before after : Store}
    (elsewhere : Elsewhere bucket key before after) (stacked : StackedAt before other otherKey)
    (away : ¬ (other = bucket ∧ otherKey = key)) : Advance call other otherKey before after :=
  Advance.of_same stacked (elsewhere.confined other otherKey away) elsewhere.later elsewhere.more
    fun unversioned => Or.inl (configured_congr elsewhere.configs other ▸ unversioned)

/-- **What a call does to the versions of any key.** -/
theorem advance_execute {store after : Store} {input : Input} {response : Response}
    (laws : VersionIdLaws ‹S3External›) (configures : input.call.Configures)
    (done : execute store input = .ok (response, after)) (bucket key : String)
    (stacked : StackedAt store bucket key) : Advance input.call bucket key store after := by
  unfold execute at done
  have same : ∀ {call : Call}, Advance call bucket key store store := fun {call} =>
    Advance.of_same stacked rfl (le_refl _) (le_refl _) Or.inl
  cases call : input.call with
  | createBucket name =>
    simp only [call] at done
    cases done
    unfold createBucket
    split
    · exact same
    · exact ⟨stacked, same.remains⟩
  | deleteBucket name =>
    simp only [call] at done
    have deleted := (noAnswer_ok done).1
    have config := configured_deleteBucket deleted bucket key
    obtain ⟨_, _, rest⟩ := bind_ok deleted
    obtain ⟨_, _, rest⟩ := bind_ok rest
    cases rest
    refine Advance.of_same stacked rfl (le_refl _) (le_refl _) fun unversioned => ?_
    rcases config with equal | none
    · exact Or.inl (equal.symm.trans unversioned)
    · exact Or.inr none
  | putConfig name kind body =>
    simp only [call] at done
    rw [call] at configures
    have config := configured_putConfig (noAnswer_ok done).1 configures bucket
    obtain ⟨_, _, rest⟩ := bind_ok (noAnswer_ok done).1
    cases rest
    exact Advance.of_same stacked rfl (le_refl _) (le_refl _) fun unversioned =>
      Or.inl (config unversioned)
  | deleteConfig name kind =>
    simp only [call] at done
    rw [call] at configures
    have config := configured_deleteConfig (noAnswer_ok done).1 configures bucket
    obtain ⟨_, _, rest⟩ := bind_ok (noAnswer_ok done).1
    cases rest
    exact Advance.of_same stacked rfl (le_refl _) (le_refl _) fun unversioned =>
      Or.inl (config ▸ unversioned)
  | objectInfo name itsKey versionId =>
    simp only [call] at done
    cases found : resolveVersion store name itsKey versionId with
    | error error => rw [found] at done; cases done
    | ok info => rw [found] at done; cases done; exact same
  | writeObject name itsKey obj =>
    simp only [call] at done
    obtain ⟨_, made, _⟩ := answerWith_ok done
    by_cases own : bucket = name ∧ key = itsKey
    · obtain ⟨rfl, rfl⟩ := own
      exact advance_writeObject laws made stacked fun row other null => ⟨⟨rfl, rfl⟩, other, null⟩
    · exact (elsewhere_writeObject made).advance stacked own
  | deleteObject name itsKey versionId =>
    simp only [call] at done
    obtain ⟨_, made, _⟩ := answerWith_ok done
    by_cases own : bucket = name ∧ key = itsKey
    · obtain ⟨rfl, rfl⟩ := own
      exact advance_deleteObject laws made stacked
    · exact (elsewhere_deleteObject made).advance stacked own
  | setObjectTags name itsKey versionId tags =>
    simp only [call] at done
    obtain ⟨_, made, _⟩ := answerWith_ok done
    exact advance_setObjectTags made bucket key stacked
  | createUpload name itsKey contentType objMeta tags =>
    simp only [call] at done
    obtain ⟨_, made, _⟩ := answerWith_ok done
    obtain ⟨_, _, rest⟩ := bind_ok made
    cases rest
    exact Advance.of_same stacked rfl (le_refl _) (Nat.le_succ _) Or.inl
  | uploadPart name itsKey uploadId partNumber content objMeta =>
    simp only [call] at done
    obtain ⟨_, made, _⟩ := answerWith_ok done
    obtain ⟨_, _, rest⟩ := bind_ok made
    obtain ⟨_, _, rest⟩ := bind_ok rest
    cases rest
    exact ⟨stacked, same.remains⟩
  | completeUpload name itsKey uploadId requested =>
    simp only [call] at done
    obtain ⟨_, made, _⟩ := answerWith_ok done
    obtain ⟨_, _, rest⟩ := bind_ok made
    obtain ⟨_, _, rest⟩ := bind_ok rest
    obtain ⟨_, _, rest⟩ := bind_ok rest
    obtain ⟨_, _, rest⟩ := bind_ok rest
    obtain ⟨⟨_, written⟩, wrote, rest⟩ := bind_ok rest
    cases rest
    have advance : Advance (.completeUpload name itsKey uploadId requested) bucket key store
        written := by
      by_cases own : bucket = name ∧ key = itsKey
      · obtain ⟨rfl, rfl⟩ := own
        exact advance_writeObject laws wrote stacked fun row other null => ⟨⟨rfl, rfl⟩, other, null⟩
      · exact (elsewhere_writeObject wrote).advance stacked own
    exact ⟨advance.stacked, advance.remains⟩
  | abortUpload name itsKey uploadId =>
    simp only [call] at done
    obtain ⟨_, _, rest⟩ := bind_ok (noAnswer_ok done).1
    cases rest
    exact ⟨stacked, same.remains⟩

/-! ### Whole runs -/

/-- What a request without a version id sees: the newest version, unless it is a delete marker. -/
theorem resolveVersion_newest {store : Store} {bucket key : String}
    (stacked : StackedAt store bucket key) (there : bucket ∈ store.buckets) (info : ObjectInfo) :
    resolveVersion store bucket key none = .ok info ↔
      ∃ row ∈ (shelfOf store bucket key).rows,
        (∀ other ∈ (shelfOf store bucket key).rows, other.seq ≤ row.seq) ∧
        row.isDeleteMarker = false ∧
        info = { infoFromRow row.toObjectRow false with isLatest := true } := by
  rw [resolveVersion_visible, visible, if_pos there, currentInfo_eq]
  have distinct := stacked.distinct
  rcases stacked.toShelved.current_cases with empty | ⟨current, only⟩
  · have rows : (shelfOf store bucket key).rows = (shelfOf store bucket key).archived := by
      rw [Shelf.rows, empty, List.map_nil, List.append_nil]
    rw [empty, rows]
    refine ⟨nofun, fun ⟨row, member, top, plain, _⟩ => ?_⟩
    rw [stacked.marked empty row member top] at plain
    cases plain
  · rw [only, List.head?_cons, Option.map_some, Option.some.injEq]
    have own : live current ∈ (shelfOf store bucket key).rows :=
      mem_rows.mpr (Or.inr ⟨current, by rw [only]; simp, rfl⟩)
    have top : ∀ other ∈ (shelfOf store bucket key).rows, other.seq ≤ current.seq := by
      intro other member
      rcases mem_rows.mp member with archived | ⟨another, same, rfl⟩
      · exact le_of_lt (stacked.newest current (by rw [only]; simp) other archived)
      · rw [only] at same
        rw [List.mem_singleton.mp same]
        exact le_refl _
    refine ⟨fun found => ⟨live current, own, top, rfl, found.symm⟩,
      fun ⟨row, member, highest, _, found⟩ => ?_⟩
    have equal : row.seq = (live current).seq := le_antisymm (top row member) (highest _ own)
    rw [found, List.inj_on_of_nodup_map distinct.seqs member own equal]
    rfl

/-- A request without a version id that finds nothing is answered with `NoSuchKey`. -/
theorem resolveVersion_noSuchKey {store : Store} {bucket key : String} {error : S3Error}
    (there : bucket ∈ store.buckets) (failed : resolveVersion store bucket key none = .error error) :
    error.code = "NoSuchKey" := by
  have found : requireBucket store bucket = .ok () :=
    rejectIf_pass (by simpa [bucketExists] using there)
  unfold resolveVersion at failed
  rw [found] at failed
  simp only [bind, Except.bind] at failed
  split at failed
  · cases failed
  · split at failed
    · split at failed
      all_goals
        cases failed
        rfl
    · cases failed
      rfl

/-- The id of no version of the key is used twice. -/
def OnceEach (store : Store) (bucket key : String) : Prop :=
  ((shelfOf store bucket key).rows.map fun row => row.versionId).Nodup

theorem advance_taken {event : S3Event} (laws : VersionIdLaws ‹S3External›)
    (taken : event.Taken perform) (configures : event.input.call.Configures) (bucket key : String)
    (stacked : StackedAt event.before bucket key) :
    Advance event.input.call bucket key event.before event.after := by
  rcases taken_commit taken with ⟨_, _, same⟩ | ⟨_, _, done⟩
  · rw [same]
    exact Advance.of_same stacked rfl (le_refl _) (le_refl _) Or.inl
  · exact advance_execute laws configures done bucket key stacked

theorem stackedAt_run {history : List S3Event} {store : Store} (laws : VersionIdLaws ‹S3External›)
    (run : S3Run history store) (configures : ∀ event ∈ history, event.input.call.Configures)
    (bucket key : String) : StackedAt store bucket key := by
  have start : StackedAt Store.empty bucket key := by
    refine ⟨⟨⟨List.nodup_nil, List.nodup_nil, nofun, nofun⟩, Nat.zero_le 1, nofun, fun _ => ?_⟩,
      fun _ => nofun⟩
    exact ⟨rfl, nofun⟩
  exact @Run.invariant_along _ _ _ _ _ _ _ (fun store => StackedAt store bucket key) run start
    fun event member taken stacked =>
      (advance_taken laws taken (configures event member) bucket key stacked).stacked

/-- **The versions of a key.** In every run, for every key: no version id is there twice, the current
version is newer than every archived one, and without a current version the newest archived one is a
delete marker. So a request without a version id sees the newest version, or nothing if that is a
delete marker or there is none; and a version is there until a request names or replaces it. -/
theorem versions_stacked {history : List S3Event} {store : Store}
    (laws : VersionIdLaws ‹S3External›) (run : S3Run history store)
    (configures : ∀ event ∈ history, event.input.call.Configures) (bucket key : String) :
    OnceEach store bucket key ∧
    (∀ row ∈ (shelfOf store bucket key).current, ∀ old ∈ (shelfOf store bucket key).archived,
      old.seq < row.seq) ∧
    ((shelfOf store bucket key).current = [] → ∀ row ∈ (shelfOf store bucket key).archived,
      (∀ other ∈ (shelfOf store bucket key).archived, other.seq ≤ row.seq) →
        row.isDeleteMarker = true) ∧
    (bucket ∈ store.buckets →
      (∀ info, resolveVersion store bucket key none = .ok info ↔
        ∃ row ∈ (shelfOf store bucket key).rows,
          (∀ other ∈ (shelfOf store bucket key).rows, other.seq ≤ row.seq) ∧
          row.isDeleteMarker = false ∧
          info = { infoFromRow row.toObjectRow false with isLatest := true }) ∧
      ∀ error, resolveVersion store bucket key none = .error error → error.code = "NoSuchKey") ∧
    ∀ event ∈ history, ∀ row ∈ (shelfOf event.before bucket key).rows,
      Remains row event.after bucket key ∨
        event.input.call.Takes event.before bucket key row := by
  have stacked := stackedAt_run laws run configures bucket key
  refine ⟨stacked.distinct.ids, stacked.newest, stacked.marked, fun there => ⟨?_, ?_⟩, ?_⟩
  · exact resolveVersion_newest stacked there
  · exact fun error failed => resolveVersion_noSuchKey there failed
  · intro event member
    obtain ⟨past, rest, rfl⟩ := List.append_of_mem member
    have before := stackedAt_run laws run.around.1
      (fun earlier there => configures earlier (List.mem_append_left _ there)) bucket key
    exact (advance_taken laws run.around.2.1 (configures event member) bucket key before).remains

end External

/-! ### A bucket with versions -/

section Sample

attribute [local instance] External.sample S3External.sample

/-- Versions before, under and after versioning, a delete marker, and deletions of versions. -/
def sampleVersions : List Call :=
  [.createBucket "b", .writeObject "b" "k" (sampleObject "1"),
    .putConfig "b" "versioning" "Enabled", .writeObject "b" "k" (sampleObject "2"),
    .deleteObject "b" "k" none, .putConfig "b" "versioning" "Suspended",
    .writeObject "b" "k" (sampleObject "3"), .deleteObject "b" "k" (some "null")]

/-- The newest version is a delete marker once the version `null` is deleted. -/
theorem versions_stacked_sample :
    OnceEach (sampleStore sampleVersions) "b" "k" ∧
      ((shelfOf (sampleStore sampleVersions) "b" "k").current = [] →
        ∀ row ∈ (shelfOf (sampleStore sampleVersions) "b" "k").archived,
          (∀ other ∈ (shelfOf (sampleStore sampleVersions) "b" "k").archived,
            other.seq ≤ row.seq) → row.isDeleteMarker = true) := by
  have configures : ∀ event ∈ Run.trace perform Store.empty (sampleInputs sampleVersions),
      event.input.call.Configures := by
    intro event member
    have input := List.mem_map_of_mem (f := Event.input) member
    rw [Run.trace_inputs] at input
    obtain ⟨call, there, same⟩ := List.mem_map.mp input
    rw [← same]
    simp only [sampleVersions, List.mem_cons, List.not_mem_nil, or_false] at there
    rcases there with rfl | rfl | rfl | rfl | rfl | rfl | rfl | rfl
    all_goals simp [Call.Configures]
  obtain ⟨once, _, marked, _⟩ := versions_stacked sample_versionIds
    (Run.of_trace perform (sampleInputs sampleVersions) Store.empty) configures "b" "k"
  exact ⟨once, marked⟩

end Sample

end CloudTwin.S3
