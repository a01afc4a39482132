/-
**Listing the uploads of a bucket** (`aws/s3/bucket.rs`, `list_uploads`).

The uploads are ordered by their keys and, of one key, by the times at which they began. A page goes
on after a marker of a key and an upload id, and of the uploads of that key it takes those with
greater ids. Ids are random, and need not grow with time.

* `listUploads` — one page.
* `listAll` — the pages, each from the markers that the one before it returned.
* `RightAfter` — the marker of a row selects the rows after it.
* `list_uploads_once` — when the pages list every upload once.
-/

import CloudTwin.S3.Listing

namespace CloudTwin.S3

open Lib Lib.Text

set_option linter.unusedSectionVars false

/-- `ORDER BY key, created_at`. -/
def uploadOrder (first second : Upload) : Prop :=
  first.key < second.key ∨ (first.key = second.key ∧ first.createdAt ≤ second.createdAt)

instance : DecidableRel uploadOrder :=
  fun _ _ => inferInstanceAs (Decidable (_ ∨ _))

/-- `list_uploads` of the service; uploads of one key that began at the same time stay in the order in
which they were inserted. -/
def uploadRows (store : Store) (bucket keyPrefix : String) : List Upload :=
  ((store.uploads.filter fun row => row.bucket == bucket).insertionSort uploadOrder).filter fun row =>
    startsWith row.key keyPrefix

structure UploadsRequest where
  keyPrefix : String
  /-- The query parameter `max-uploads`. -/
  maxUploads : Option String
  keyMarker : String
  uploadIdMarker : String

def maxUploadsOf (text : Option String) : S3Result Nat :=
  match text with
  | none => .ok 1000
  | some text =>
    (okOr ((parseI64 text).filter fun number => 0 ≤ number)
      (((S3Error.invalidArgument "Provided max-keys not an integer or within integer range").withField
        "ArgumentName" "max-uploads").withField "ArgumentValue" text)).map fun number =>
      min number.toNat 1000

/-- The uploads that a page may list. -/
def afterMarker (keyMarker uploadIdMarker : String) (row : Upload) : Bool :=
  keyMarker.isEmpty || decide (keyMarker < row.key) ||
    (!uploadIdMarker.isEmpty && row.key == keyMarker && decide (uploadIdMarker < row.uploadId))

structure UploadPage where
  uploads : List Upload
  truncated : Bool
  /-- `NextKeyMarker` and `NextUploadIdMarker`. -/
  next : Option (String × String)

/-- A page of the rows of a bucket. -/
def pageOf (rows : List Upload) (max : Nat) (keyMarker uploadIdMarker : String) : UploadPage :=
  let uploads := rows.filter (afterMarker keyMarker uploadIdMarker)
  let truncated := decide (max < uploads.length)
  { uploads := uploads.take max
    truncated
    next := if truncated then (uploads.take max).getLast?.map fun row => (row.key, row.uploadId)
      else none }

/-- **A page of ListMultipartUploads.** -/
def listUploads (store : Store) (bucket : String) (request : UploadsRequest) : S3Result UploadPage := do
  let max ← maxUploadsOf request.maxUploads
  requireBucket store bucket
  return pageOf (uploadRows store bucket request.keyPrefix) max request.keyMarker
    request.uploadIdMarker

/-- The uploads of at most `fuel` pages, each with the markers that the one before it returned; `none`
if there are more. -/
def listAll (store : Store) (bucket keyPrefix : String) (maxUploads : Option String) :
    Nat → String → String → S3Result (Option (List Upload))
  | 0, _, _ => .ok none
  | fuel + 1, keyMarker, uploadIdMarker => do
    let page ← listUploads store bucket { keyPrefix, maxUploads, keyMarker, uploadIdMarker }
    if page.truncated then
      let next := page.next.getD ("", "")
      let rest ← listAll store bucket keyPrefix maxUploads fuel next.1 next.2
      return rest.map fun rest => page.uploads ++ rest
    else return some page.uploads

/-! ### Pages of rows -/

/-- The pages of the rows of a bucket. -/
def pagesOf (rows : List Upload) (max : Nat) : Nat → String → String → Option (List Upload)
  | 0, _, _ => none
  | fuel + 1, keyMarker, uploadIdMarker =>
    let page := pageOf rows max keyMarker uploadIdMarker
    if page.truncated then
      (pagesOf rows max fuel (page.next.getD ("", "")).1 (page.next.getD ("", "")).2).map fun rest =>
        page.uploads ++ rest
    else some page.uploads

theorem listAll_eq {store : Store} {bucket keyPrefix : String} {maxUploads : Option String}
    {max : Nat} (parsed : maxUploadsOf maxUploads = .ok max) (there : bucket ∈ store.buckets) :
    ∀ (fuel : Nat) (keyMarker uploadIdMarker : String),
      listAll store bucket keyPrefix maxUploads fuel keyMarker uploadIdMarker =
        .ok (pagesOf (uploadRows store bucket keyPrefix) max fuel keyMarker uploadIdMarker) := by
  intro fuel
  induction fuel with
  | zero => exact fun _ _ => rfl
  | succ fuel ih =>
    intro keyMarker uploadIdMarker
    have listed : listUploads store bucket { keyPrefix, maxUploads, keyMarker, uploadIdMarker } =
        .ok (pageOf (uploadRows store bucket keyPrefix) max keyMarker uploadIdMarker) :=
      ok_bind parsed (ok_bind (rejectIf_pass (by simpa [bucketExists] using there)) rfl)
    refine ok_bind listed ?_
    rw [pagesOf]
    split
    · exact ok_bind (ih _ _) rfl
    · rfl

/-- The rows of a table of uploads: the ids are a primary key, and neither keys nor ids are empty. -/
structure UploadTable (rows : List Upload) : Prop where
  ids : (rows.map Upload.uploadId).Nodup
  named : ∀ row ∈ rows, row.key ≠ "" ∧ row.uploadId ≠ ""

/-- The marker of a row. -/
def afterRow (mark row : Upload) : Bool :=
  afterMarker mark.key mark.uploadId row

theorem afterRow_iff {mark row : Upload} (named : mark.key ≠ "" ∧ mark.uploadId ≠ "") :
    afterRow mark row = true ↔
      mark.key < row.key ∨ (row.key = mark.key ∧ mark.uploadId < row.uploadId) := by
  have key : mark.key.isEmpty = false := by simpa [String.isEmpty_iff] using named.1
  have id : mark.uploadId.isEmpty = false := by simpa [String.isEmpty_iff] using named.2
  unfold afterRow afterMarker
  simp [key, id]

theorem afterRow_irrefl {mark : Upload} (named : mark.key ≠ "" ∧ mark.uploadId ≠ "") :
    afterRow mark mark = false := by
  rw [Bool.eq_false_iff, ne_eq, afterRow_iff named]
  rintro (less | ⟨_, less⟩)
  · exact lt_irrefl _ less
  · exact lt_irrefl _ less

/-- What comes after a row that comes after a marker comes after the marker. -/
theorem afterMarker_trans {keyMarker uploadIdMarker : String} {mark row : Upload}
    (named : mark.key ≠ "" ∧ mark.uploadId ≠ "")
    (first : afterMarker keyMarker uploadIdMarker mark = true) (second : afterRow mark row = true) :
    afterMarker keyMarker uploadIdMarker row = true := by
  rw [afterRow_iff named] at second
  unfold afterMarker at first ⊢
  simp only [Bool.or_eq_true, Bool.and_eq_true, decide_eq_true_iff, beq_iff_eq] at first ⊢
  rcases first with (start | less) | ⟨⟨some', same⟩, less⟩
  · exact Or.inl (Or.inl start)
  · rcases second with more | ⟨equal, _⟩
    · exact Or.inl (Or.inr (less.trans more))
    · exact Or.inl (Or.inr (equal ▸ less))
  · rcases second with more | ⟨equal, later⟩
    · exact Or.inl (Or.inr (same ▸ more))
    · exact Or.inr ⟨⟨some', equal.trans same⟩, less.trans later⟩

section Pages

variable {rows : List Upload} {max : Nat}

/-- A page that is not the last one ends with a row, and the next page is read from its marker. -/
theorem pageOf_truncated {keyMarker uploadIdMarker : String} (room : 0 < max)
    (more : max < (rows.filter (afterMarker keyMarker uploadIdMarker)).length) :
    ∃ mark, (rows.filter (afterMarker keyMarker uploadIdMarker))[max - 1]? = some mark ∧
      mark ∈ rows.filter (afterMarker keyMarker uploadIdMarker) ∧
      ∀ fuel, pagesOf rows max (fuel + 1) keyMarker uploadIdMarker =
        (pagesOf rows max fuel mark.key mark.uploadId).map fun rest =>
          (rows.filter (afterMarker keyMarker uploadIdMarker)).take max ++ rest := by
  generalize listed : rows.filter (afterMarker keyMarker uploadIdMarker) = uploads at *
  have inside : max - 1 < uploads.length := by omega
  have last : (uploads.take max).getLast? = some uploads[max - 1] := by
    rw [List.getLast?_eq_getElem?, List.length_take, Nat.min_eq_left more.le,
      List.getElem?_take_of_lt (by omega), List.getElem?_eq_getElem inside]
  refine ⟨uploads[max - 1], List.getElem?_eq_getElem inside, List.getElem_mem inside, fun fuel => ?_⟩
  rw [pagesOf]
  simp only [pageOf, listed, decide_eq_true more, if_true, last, Option.map_some, Option.getD_some]

theorem pageOf_last {keyMarker uploadIdMarker : String}
    (fits : ¬ max < (rows.filter (afterMarker keyMarker uploadIdMarker)).length) (fuel : Nat) :
    pagesOf rows max (fuel + 1) keyMarker uploadIdMarker =
      some (rows.filter (afterMarker keyMarker uploadIdMarker)) := by
  rw [pagesOf]
  simp only [pageOf, decide_eq_false fits, Bool.false_eq_true, if_false,
    List.take_of_length_le (not_lt.mp fits)]

/-- A marker selects fewer rows than the one that selects its own row. -/
theorem afterRow_fewer {keyMarker uploadIdMarker : String} {mark : Upload}
    (named : mark.key ≠ "" ∧ mark.uploadId ≠ "")
    (here : mark ∈ rows.filter (afterMarker keyMarker uploadIdMarker)) :
    (rows.filter (afterRow mark)).length <
      (rows.filter (afterMarker keyMarker uploadIdMarker)).length := by
  have inner : rows.filter (afterRow mark) =
      (rows.filter (afterMarker keyMarker uploadIdMarker)).filter (afterRow mark) := by
    rw [List.filter_filter]
    refine List.filter_congr fun row _ => ?_
    by_cases later : afterRow mark row = true
    · rw [later, afterMarker_trans named (List.mem_filter.mp here).2 later]
      rfl
    · rw [Bool.not_eq_true] at later
      rw [later, Bool.false_and]
  rw [inner]
  refine lt_of_le_of_ne (List.length_filter_le _ _) fun same => ?_
  have all := List.length_filter_eq_length_iff.mp same mark here
  rw [afterRow_irrefl named] at all
  cases all

/-- **The pages come to an end**, list only rows after the marker, and list the first of them. -/
theorem pagesOf_answers (table : UploadTable rows) (room : 0 < max) :
    ∀ (fuel : Nat) (keyMarker uploadIdMarker : String),
      (rows.filter (afterMarker keyMarker uploadIdMarker)).length < fuel →
      ∃ result, pagesOf rows max fuel keyMarker uploadIdMarker = some result ∧
        (∀ row ∈ result, row ∈ rows.filter (afterMarker keyMarker uploadIdMarker)) ∧
        ∀ row, (rows.filter (afterMarker keyMarker uploadIdMarker)).head? = some row →
          row ∈ result := by
  intro fuel
  induction fuel with
  | zero => exact fun _ _ none' => absurd none' (Nat.not_lt_zero _)
  | succ fuel ih =>
    intro keyMarker uploadIdMarker enough
    by_cases more : max < (rows.filter (afterMarker keyMarker uploadIdMarker)).length
    · obtain ⟨mark, _, here, next⟩ := pageOf_truncated room more
      have named := table.named mark (List.mem_filter.mp here).1
      have fewer := afterRow_fewer named here
      obtain ⟨rest, answered, listed, _⟩ := ih mark.key mark.uploadId (Nat.lt_of_lt_of_le fewer
        (Nat.le_of_lt_succ enough))
      refine ⟨_, by rw [next, answered]; rfl, fun row member => ?_, fun row first => ?_⟩
      · rcases List.mem_append.mp member with now | later
        · exact List.mem_of_mem_take now
        · obtain ⟨stored, after⟩ := List.mem_filter.mp (listed row later)
          exact List.mem_filter.mpr ⟨stored, afterMarker_trans named (List.mem_filter.mp here).2 after⟩
      · refine List.mem_append_left _ (List.mem_of_mem_head? ?_)
        rw [List.head?_take, if_neg (by omega)]
        exact first
    · exact ⟨_, pageOf_last more fuel, fun _ member => member, fun row first =>
        List.mem_of_mem_head? first⟩

/-- **The marker of a row selects the rows after it**: those at a position from `stop` on. -/
def RightAfter (rows : List Upload) (stop : Nat) (mark : Upload) : Prop :=
  ∀ index row, rows[index]? = some row → (afterRow mark row = true ↔ stop ≤ index)

theorem RightAfter.drop {stop : Nat} {mark : Upload} (right : RightAfter rows stop mark) :
    rows.filter (afterRow mark) = rows.drop stop := by
  have before : (rows.take stop).filter (afterRow mark) = [] := by
    rw [List.filter_eq_nil_iff]
    intro row member later
    obtain ⟨index, inside, rfl⟩ := List.getElem_of_mem member
    rw [List.getElem_take] at later
    rw [List.length_take] at inside
    have above := (right index _ (List.getElem?_eq_getElem (by omega))).mp later
    omega
  have after : (rows.drop stop).filter (afterRow mark) = rows.drop stop := by
    rw [List.filter_eq_self]
    intro row member
    obtain ⟨index, inside, rfl⟩ := List.getElem_of_mem member
    rw [List.length_drop] at inside
    rw [List.getElem_drop]
    exact (right (stop + index) _ (List.getElem?_eq_getElem (by omega))).mpr (Nat.le_add_right ..)
  conv_lhs => rw [← List.take_append_drop stop rows]
  rw [List.filter_append, before, after, List.nil_append]

/-- If the rows after a marker are listed once, and these are the rows from a position on, the marker
selects just these. -/
theorem RightAfter.of_perm (table : UploadTable rows) {stop : Nat} {mark : Upload}
    {result : List Upload} (listed : ∀ row ∈ result, row ∈ rows.filter (afterRow mark))
    (first : ∀ row, (rows.filter (afterRow mark)).head? = some row → row ∈ result)
    (perm : result.Perm (rows.drop stop)) : RightAfter rows stop mark := by
  have distinct : rows.Nodup := List.Nodup.of_map _ table.ids
  have position : ∀ {index : Nat} {row : Upload}, rows[index]? = some row →
      (row ∈ rows.drop stop ↔ stop ≤ index) := by
    intro index row found
    obtain ⟨inside, rfl⟩ := List.getElem?_eq_some_iff.mp found
    rw [List.mem_drop_iff_getElem]
    constructor
    · rintro ⟨other, inRange, same⟩
      have equal := (List.Nodup.getElem_inj_iff distinct).mp same
      omega
    · intro above
      exact ⟨index - stop, by omega, by congr 1; omega⟩
  intro index row found
  constructor
  · intro later
    by_contra below
    -- The first row that the marker selects stands no later than this one, and is listed.
    have member : row ∈ rows.filter (afterRow mark) :=
      List.mem_filter.mpr ⟨List.mem_of_getElem? found, later⟩
    obtain ⟨early, here⟩ : ∃ early, (rows.filter (afterRow mark)).head? = some early := by
      cases selected : rows.filter (afterRow mark) with
      | nil => rw [selected] at member; cases member
      | cons early _ => exact ⟨early, rfl⟩
    have stays := (perm.mem_iff.mp (first early here))
    rw [List.head?_filter] at here
    obtain ⟨selected, place, inRange, same, least⟩ := List.find?_eq_some_iff_getElem.mp here
    have late := (position (List.getElem?_eq_some_iff.mpr ⟨inRange, same⟩)).mp stays
    have earlier : place ≤ index := by
      by_contra beyond
      obtain ⟨inside, equal⟩ := List.getElem?_eq_some_iff.mp found
      have none' := least index (by omega)
      rw [equal, later] at none'
      cases none'
    omega
  · intro above
    exact (List.mem_filter.mp (listed row (perm.mem_iff.mpr ((position found).mpr above)))).2

/-- **The pages list the rows once exactly when every marker selects the rows after its own.** -/
theorem pagesOf_perm (table : UploadTable rows) (room : 0 < max) :
    ∀ (fuel start : Nat) (keyMarker uploadIdMarker : String),
      rows.filter (afterMarker keyMarker uploadIdMarker) = rows.drop start →
      (rows.drop start).length < fuel →
      ∃ result, pagesOf rows max fuel keyMarker uploadIdMarker = some result ∧
        (result.Perm (rows.drop start) ↔ ∀ count mark, start + (count + 1) * max < rows.length →
          rows[start + (count + 1) * max - 1]? = some mark →
            RightAfter rows (start + (count + 1) * max) mark) := by
  intro fuel
  induction fuel with
  | zero => exact fun _ _ _ _ none' => absurd none' (Nat.not_lt_zero _)
  | succ fuel ih =>
    intro start keyMarker uploadIdMarker selected enough
    by_cases more : max < (rows.filter (afterMarker keyMarker uploadIdMarker)).length
    · obtain ⟨mark, last, here, next⟩ := pageOf_truncated room more
      have named := table.named mark (List.mem_filter.mp here).1
      have fewer := afterRow_fewer named here
      rw [selected] at last more next fewer
      rw [List.getElem?_drop] at last
      rw [List.length_drop] at more enough
      have place : rows[start + (0 + 1) * max - 1]? = some mark := by
        rw [← last]
        congr 1
        omega
      have pieces : rows.drop start = (rows.drop start).take max ++ rows.drop (start + max) := by
        rw [← List.drop_drop, List.take_append_drop]
      by_cases right : RightAfter rows (start + max) mark
      · obtain ⟨rest, answered, perm⟩ := ih (start + max) mark.key mark.uploadId right.drop (by
          rw [List.length_drop]
          omega)
        refine ⟨_, by rw [next, answered]; rfl, ?_⟩
        rw [pieces, List.take_append_of_le_length (by simp; omega), List.take_take, Nat.min_self,
          List.perm_append_left_iff, perm]
        constructor
        · intro each count mark' inside found
          cases count with
          | zero =>
            rw [place] at found
            cases found
            simpa using right
          | succ count =>
            have shift : start + (count + 1 + 1) * max = start + max + (count + 1) * max := by ring
            rw [shift] at inside found ⊢
            exact each count mark' inside found
        · intro each count mark' inside found
          have shift : start + (count + 1 + 1) * max = start + max + (count + 1) * max := by ring
          rw [← shift] at inside found ⊢
          exact each (count + 1) mark' inside found
      · obtain ⟨rest, answered, listed, first⟩ := pagesOf_answers table room fuel mark.key
          mark.uploadId (by rw [List.length_drop] at fewer; exact Nat.lt_of_lt_of_le fewer (by omega))
        refine ⟨_, by rw [next, answered]; rfl, fun perm => ?_, fun each => ?_⟩
        · rw [pieces, List.take_append_of_le_length (by simp; omega), List.take_take, Nat.min_self,
            List.perm_append_left_iff] at perm
          exact absurd (RightAfter.of_perm table listed first perm) right
        · refine absurd ?_ right
          have right := each 0 mark (by omega) place
          rwa [Nat.zero_add, Nat.one_mul] at right
    · refine ⟨_, pageOf_last more fuel, ?_⟩
      rw [selected] at more ⊢
      rw [List.length_drop] at more
      refine ⟨fun _ count _ inside _ => ?_, fun _ => List.Perm.refl _⟩
      have step : max ≤ (count + 1) * max := Nat.le_mul_of_pos_left _ (Nat.succ_pos _)
      omega

end Pages

/-! ### The uploads of a bucket -/

/-- **At the end of every page, the uploads of its key still to come have greater ids**, and those
that were listed have not. -/
def IdsGrow (rows : List Upload) (max : Nat) : Prop :=
  ∀ count mark, (count + 1) * max < rows.length → rows[(count + 1) * max - 1]? = some mark →
    ∀ index row, rows[index]? = some row → row.key = mark.key →
      (mark.uploadId < row.uploadId ↔ (count + 1) * max ≤ index)

theorem rightAfter_iff {rows : List Upload} (table : UploadTable rows)
    (sorted : rows.Pairwise fun first second => first.key ≤ second.key) {stop : Nat} {mark : Upload}
    (some' : 0 < stop) (place : rows[stop - 1]? = some mark) :
    RightAfter rows stop mark ↔ ∀ index row, rows[index]? = some row → row.key = mark.key →
      (mark.uploadId < row.uploadId ↔ stop ≤ index) := by
  have named := table.named mark (List.mem_of_getElem? place)
  obtain ⟨inside, same⟩ := List.getElem?_eq_some_iff.mp place
  -- Rows of other keys stand on the side of the marker on which their keys are.
  have others : ∀ index row, rows[index]? = some row → row.key ≠ mark.key →
      (mark.key < row.key ↔ stop ≤ index) := by
    intro index row found other
    obtain ⟨inRange, equal⟩ := List.getElem?_eq_some_iff.mp found
    constructor
    · intro less
      by_contra below
      rcases Nat.lt_or_ge index (stop - 1) with before | after
      · have order := List.pairwise_iff_getElem.mp sorted index (stop - 1) inRange inside before
        rw [equal, same] at order
        exact absurd less (not_lt.mpr order)
      · have here : index = stop - 1 := by omega
        subst here
        exact other (by rw [← equal, ← same])
    · intro above
      have order := List.pairwise_iff_getElem.mp sorted (stop - 1) index inside inRange (by omega)
      rw [equal, same] at order
      exact lt_of_le_of_ne order other.symm
  refine forall_congr' fun index => forall_congr' fun row => forall_congr' fun found => ?_
  rw [afterRow_iff named]
  by_cases equal : row.key = mark.key
  · simp [equal]
  · simp [equal, others index row found equal]

theorem uploadRows_sorted (store : Store) (bucket keyPrefix : String) :
    (uploadRows store bucket keyPrefix).Pairwise fun first second => first.key ≤ second.key := by
  have : IsTrans Upload uploadOrder := by
    refine ⟨fun first second third => ?_⟩
    rintro (less | ⟨same, time⟩) (more | ⟨equal, later⟩)
    · exact Or.inl (less.trans more)
    · exact Or.inl (equal ▸ less)
    · exact Or.inl (same ▸ more)
    · exact Or.inr ⟨same.trans equal, le_trans time later⟩
  have : Std.Total uploadOrder := by
    refine ⟨fun first second => ?_⟩
    rcases lt_trichotomy first.key second.key with less | same | more
    · exact Or.inl (Or.inl less)
    · rcases le_total first.createdAt second.createdAt with older | newer
      · exact Or.inl (Or.inr ⟨same, older⟩)
      · exact Or.inr (Or.inr ⟨same.symm, newer⟩)
    · exact Or.inr (Or.inl more)
  refine (List.Pairwise.filter _ (List.pairwise_insertionSort uploadOrder _)).imp ?_
  rintro first second (less | ⟨same, _⟩)
  · exact le_of_lt less
  · exact le_of_eq same

theorem uploadRows_perm (store : Store) (bucket keyPrefix : String) :
    (uploadRows store bucket keyPrefix).Perm
      ((store.uploads.filter fun row => row.bucket == bucket).filter fun row =>
        startsWith row.key keyPrefix) :=
  (List.perm_insertionSort uploadOrder _).filter _

/-- **Paging through the uploads**: the pages come to an end, and list every upload with the prefix
once exactly when at the end of each page the ids of its key have grown with time. -/
theorem list_uploads_once {store : Store} {bucket keyPrefix : String} {maxUploads : Option String}
    {max : Nat} (parsed : maxUploadsOf maxUploads = .ok max) (room : 0 < max)
    (there : bucket ∈ store.buckets) (table : UploadTable store.uploads) :
    ∃ result, listAll store bucket keyPrefix maxUploads (store.uploads.length + 1) "" "" =
        .ok (some result) ∧
      (result.Perm ((store.uploads.filter fun row => row.bucket == bucket).filter fun row =>
          startsWith row.key keyPrefix) ↔
        IdsGrow (uploadRows store bucket keyPrefix) max) := by
  have perm := uploadRows_perm store bucket keyPrefix
  have part : ((store.uploads.filter fun row => row.bucket == bucket).filter fun row =>
      startsWith row.key keyPrefix).Sublist store.uploads :=
    List.filter_sublist.trans List.filter_sublist
  have rows : UploadTable (uploadRows store bucket keyPrefix) := by
    refine ⟨(perm.map _).nodup_iff.mpr (table.ids.sublist (part.map _)), fun row member => ?_⟩
    exact table.named row (part.subset (perm.mem_iff.mp member))
  have every : (uploadRows store bucket keyPrefix).filter (afterMarker "" "") =
      (uploadRows store bucket keyPrefix).drop 0 := by
    rw [List.drop_zero, List.filter_eq_self]
    exact fun _ _ => rfl
  have short : ((uploadRows store bucket keyPrefix).drop 0).length < store.uploads.length + 1 := by
    rw [List.drop_zero, perm.length_eq]
    exact Nat.lt_succ_of_le part.length_le
  obtain ⟨result, answered, once⟩ := pagesOf_perm rows room _ 0 "" "" every short
  refine ⟨result, by rw [listAll_eq parsed there, answered], ?_⟩
  rw [List.drop_zero] at once
  rw [← (perm.congr_right result), once]
  refine forall_congr' fun count => forall_congr' fun mark => ?_
  rw [Nat.zero_add]
  refine forall_congr' fun _ => forall_congr' fun place => ?_
  have some' : 0 < (count + 1) * max := Nat.mul_pos (Nat.succ_pos _) room
  exact rightAfter_iff rows (uploadRows_sorted store bucket keyPrefix) some' place

/-! ### Sample uploads -/

def sampleUploadRow (uploadId : String) (createdAt : Int) : Upload where
  uploadId := uploadId
  bucket := "b"
  key := "k"
  contentType := "text/plain"
  objMeta := ObjMeta.default
  tags := []
  createdAt := createdAt

/-- A bucket with two uploads of one key. -/
def twoUploads (first second : String) : Store :=
  { Store.empty with
    buckets := ["b"]
    uploads := [sampleUploadRow first 0, sampleUploadRow second 1] }

theorem list_uploads_once_sample :
    ∃ result, listAll (twoUploads "0a" "0b") "b" "" (some "1") 3 "" "" = .ok (some result) ∧
      (result.Perm (((twoUploads "0a" "0b").uploads.filter fun row => row.bucket == "b").filter
          fun row => startsWith row.key "") ↔
        IdsGrow (uploadRows (twoUploads "0a" "0b") "b" "") 1) :=
  @list_uploads_once _ _ _ _ 1 (by decide) (by decide) (by decide)
    ⟨by decide, fun row member => by
      rcases List.mem_cons.mp member with rfl | other
      · exact ⟨by decide, by decide⟩
      · rw [List.mem_singleton.mp other]
        exact ⟨by decide, by decide⟩⟩

/-- The upload that began later has the smaller id, and is not listed. -/
theorem later_upload_lost :
    (listAll (twoUploads "0b" "0a") "b" "" (some "1") 3 "" "").map
        (Option.map (List.map Upload.uploadId)) = .ok (some ["0b"]) := by
  decide

end CloudTwin.S3
