/-
**Listing the objects of a Cloud Storage bucket** (`gcp/storage/service.rs`, `list_objects` and
`paginate`).

The groups that were met are kept in a set, and a page goes on after the last key of the one before it,
which is written into the token.

* `collect`, `pageEntries`, `paginate`, `listObjects` — the loop over the rows, and a page.
* `collect_shape`, `pageEntries_shape` — they are the loop and the pages of any listing.
* `ObjectListing.entries` — the entries of an answer; `entries_paginate`, they are those of the page.
* `listPage_paging` — the tokens are cursors; `listPage_lists`, a bucket is listed in pages exactly when
  its names can be found by the prefix.
-/

import CloudTwin.Gcs.Service
import CloudTwin.Lib.Base64
import CloudTwin.Lib.Grouping

namespace CloudTwin.Gcs

open Lib Lib.Text

structure ListQuery where
  keyPrefix : String
  delimiter : Option String
  startOffset : Option String
  endOffset : Option String
  maxResults : Option Nat
  pageToken : Option String

/-- `Entry`. -/
inductive Listed where
  | item (object : GcsObject)
  | common (text : String)

def Listed.key : Listed → String
  | .item object => object.name
  | .common text => text

/-- The entry, as far as the name goes. -/
def Listed.shape : Listed → Entry
  | .item object => .item object.name
  | .common text => .common text

structure ObjectListing where
  items : List GcsObject
  prefixes : List String
  nextPageToken : Option String

/-- `q.delimiter.as_deref().filter(|d| !d.is_empty())`. -/
def ListQuery.delim (query : ListQuery) : Option String :=
  query.delimiter.filter fun text => !text.isEmpty

/-- The name is outside the offsets. -/
def ListQuery.skips (query : ListQuery) (name : String) : Bool :=
  (query.startOffset.any fun first => decide (name < first)) ||
    query.endOffset.any fun last => decide (last ≤ name)

/-- The loop of `paginate` over the rows: `seen` is the set of prefixes. -/
def collect (query : ListQuery) : List String → List GcsObject → List Listed
  | _, [] => []
  | seen, object :: rows =>
    if query.skips object.name then collect query seen rows
    else
      let rest := object.name.toList.drop query.keyPrefix.toList.length
      let found := query.delim.bind fun text =>
        (findSub text.toList rest).map fun index => index + text.toList.length
      match found with
      | some pos =>
        let text := query.keyPrefix ++ String.ofList (rest.take pos)
        if text ∈ seen then collect query seen rows
        else .common text :: collect query (text :: seen) rows
      | none => .item object :: collect query seen rows

/-- `q.page_token`, decoded. -/
def tokenKey (token : Option String) : Option String :=
  (token.bind Base64.urlSafeNoPadDecode).bind fromUtf8

def keyToken (key : String) : String :=
  Base64.urlSafeNoPadEncode (utf8 key)

def ListQuery.max (query : ListQuery) : Nat :=
  (query.maxResults.filter fun max => 0 < max).getD 1000

/-- The entries of a page and the token of the next one. -/
def pageEntries (rows : List GcsObject) (query : ListQuery) : List Listed × Option String :=
  let remaining := (collect query [] rows).filter fun entry =>
    (tokenKey query.pageToken).all fun after => decide (after < entry.key)
  let page := remaining.take query.max
  (page, if query.max < remaining.length then page.getLast?.map fun entry => keyToken entry.key else none)

/-- Apply offsets, delimiter grouping and page-token pagination to objects already filtered by prefix
and sorted by name. -/
def paginate (rows : List GcsObject) (query : ListQuery) : ObjectListing where
  items := (pageEntries rows query).1.filterMap fun
    | .item object => some object
    | .common _ => none
  prefixes := (pageEntries rows query).1.filterMap fun
    | .item _ => none
    | .common text => some text
  nextPageToken := (pageEntries rows query).2

def listObjects (store : GcsStore) (bucket : String) (query : ListQuery) : GcsResult ObjectListing := do
  rejectIf (bucketExists store bucket = false) (GcsError.bucketNotFound bucket)
  return paginate (rowsOf GcsObject.name query.keyPrefix
    (store.objects.filter fun object => object.bucket == bucket)) query

/-! ### The loop and the pages -/

/-- The delimiter, empty for none. -/
def ListQuery.delimText (query : ListQuery) : String :=
  query.delimiter.getD ""

theorem found_commonText (query : ListQuery) (name : String) :
    ((query.delim.bind fun text => (findSub text.toList (remainder query.keyPrefix name)).map
      fun index => index + text.toList.length).map fun pos =>
        query.keyPrefix ++ String.ofList ((remainder query.keyPrefix name).take pos)) =
      commonText query.keyPrefix query.delimText name := by
  unfold ListQuery.delim ListQuery.delimText commonText
  cases query.delimiter with
  | none => rfl
  | some text =>
    rw [Option.filter_some, Option.getD_some]
    cases empty : text.isEmpty with
    | true => rfl
    | false =>
      rw [Bool.not_false, if_pos rfl, if_neg Bool.false_ne_true, Option.bind_some, Option.map_map]
      rfl

/-- **The loop is the one of any listing**, on the names within the offsets. -/
theorem collect_shape (query : ListQuery) (rows : List GcsObject) : ∀ seen,
    (collect query seen rows).map Listed.shape =
      groupSeen query.keyPrefix query.delimText seen
        ((rows.map GcsObject.name).filter fun name => !query.skips name) := by
  induction rows with
  | nil => exact fun _ => rfl
  | cons object rows ih =>
    intro seen
    have common := found_commonText query object.name
    unfold collect
    rw [List.map_cons, List.filter_cons]
    cases query.skips object.name with
    | true => exact ih seen
    | false =>
      rw [if_neg Bool.false_ne_true, Bool.not_false, if_pos rfl]
      unfold groupSeen
      rw [← common]
      show List.map Listed.shape (match (query.delim.bind fun text =>
          (findSub text.toList (remainder query.keyPrefix object.name)).map fun index =>
            index + text.toList.length) with
        | some pos =>
          let text := query.keyPrefix ++ String.ofList ((remainder query.keyPrefix object.name).take pos)
          if text ∈ seen then collect query seen rows
          else .common text :: collect query (text :: seen) rows
        | none => .item object :: collect query seen rows) = _
      cases query.delim.bind fun text =>
          (findSub text.toList (remainder query.keyPrefix object.name)).map fun index =>
            index + text.toList.length with
      | none => exact congrArg (_ :: ·) (ih seen)
      | some pos =>
        dsimp only [Option.map_some]
        split
        · exact ih seen
        · exact congrArg (_ :: ·) (ih _)

theorem tokenKey_keyToken (key : String) : tokenKey (some (keyToken key)) = some key := by
  unfold tokenKey keyToken Base64.urlSafeNoPadDecode Base64.urlSafeNoPadEncode
  rw [Option.bind_some, Base64.decode_encode, Option.bind_some, fromUtf8_utf8]

theorem shape_key (entry : Listed) : entry.shape.key = entry.key := by
  cases entry with
  | item object => rfl
  | common text => rfl

/-- The names within the offsets, of the rows that a listing reads. -/
def ListQuery.namesOf (query : ListQuery) (rows : List GcsObject) : List String :=
  ((rowsOf GcsObject.name query.keyPrefix rows).map GcsObject.name).filter fun name =>
    !query.skips name

/-- The listing, of which a page is a part. -/
def ListQuery.listing (query : ListQuery) (rows : List GcsObject) : List Entry :=
  groupSeen query.keyPrefix query.delimText [] (query.namesOf rows)

theorem ListQuery.max_pos (query : ListQuery) : 0 < query.max := by
  unfold ListQuery.max
  cases given : query.maxResults.filter fun max => 0 < max with
  | none => decide
  | some max => exact of_decide_eq_true (Option.filter_eq_some_iff.mp given).2

/-- **A page is one of the listing after a key.** -/
theorem pageEntries_shape (query : ListQuery) (rows : List GcsObject) :
    (pageEntries (rowsOf GcsObject.name query.keyPrefix rows) query).1.map Listed.shape =
        (pageAfter Entry.key query.max (query.listing rows) (tokenKey query.pageToken)).1 ∧
      (pageEntries (rowsOf GcsObject.name query.keyPrefix rows) query).2.map some =
        (pageAfter Entry.key query.max (query.listing rows) (tokenKey query.pageToken)).2.map
          (Option.map keyToken) := by
  have remaining : ((query.listing rows).filter fun entry =>
      (tokenKey query.pageToken).all fun after => decide (after < entry.key)) =
      ((collect query [] (rowsOf GcsObject.name query.keyPrefix rows)).filter fun entry =>
        (tokenKey query.pageToken).all fun after => decide (after < entry.key)).map Listed.shape := by
    unfold ListQuery.listing ListQuery.namesOf
    rw [← collect_shape, List.filter_map]
    congr 1
    refine List.filter_congr fun entry _ => ?_
    show (tokenKey query.pageToken).all (fun after => decide (after < entry.shape.key)) = _
    rw [shape_key]
  unfold pageEntries pageAfter
  dsimp only
  rw [remaining, List.length_map, ← List.map_take]
  refine ⟨rfl, ?_⟩
  split
  · rename_i more
    rw [List.getLast?_map, Option.map_map, Option.map_some]
    cases last : (List.take query.max ((collect query []
        (rowsOf GcsObject.name query.keyPrefix rows)).filter fun entry =>
          (tokenKey query.pageToken).all fun after => decide (after < entry.key))).getLast? with
    | none =>
      have empty := congrArg List.length (List.getLast?_eq_none_iff.mp last)
      have some_entry := query.max_pos
      rw [List.length_take, List.length_nil] at empty
      omega
    | some entry =>
      show some (some (keyToken entry.key)) = some (some (keyToken entry.shape.key))
      rw [shape_key]
  · rfl

/-- The objects of a bucket: the name is the primary key. -/
abbrev Objects := NamedRows GcsObject GcsObject.name

/-- A page of some objects, with the token that was given. -/
def pageOf (query : ListQuery) (objects : Objects) (token : Option String) :
    List Entry × Option (Option String) :=
  let page := pageEntries (rowsOf GcsObject.name query.keyPrefix objects.rows)
    { query with pageToken := token }
  (page.1.map Listed.shape, page.2.map some)

/-- The names that are listed: those in `[startOffset, endOffset)`. -/
def ListQuery.lists (query : ListQuery) (objects : Objects) (name : String) : Prop :=
  name ∈ objects.rows.map GcsObject.name ∧
    (∀ first, query.startOffset = some first → first ≤ name) ∧
    ∀ last, query.endOffset = some last → name < last

theorem skips_iff {query : ListQuery} {name : String} :
    (!query.skips name) = true ↔ (∀ first, query.startOffset = some first → first ≤ name) ∧
      ∀ last, query.endOffset = some last → name < last := by
  unfold ListQuery.skips
  rw [Bool.not_or, Bool.and_eq_true]
  refine and_congr ?_ ?_
  · cases query.startOffset with
    | none => simp
    | some first =>
      show (!decide (name < first)) = true ↔ _
      rw [Bool.not_eq_true', decide_eq_false_iff_not, not_lt]
      simp
  · cases query.endOffset with
    | none => simp
    | some last =>
      show (!decide (last ≤ name)) = true ↔ _
      rw [Bool.not_eq_true', decide_eq_false_iff_not, not_le]
      simp

theorem listing_inOrder (query : ListQuery) (objects : Objects) :
    InOrder Entry.key (query.listing objects.rows) :=
  inOrder_rowsOf objects query.keyPrefix query.delimText fun name => !query.skips name

/-- **The tokens are cursors.** -/
theorem pageOf_paging (query : ListQuery) :
    Paging Entry.key (fun objects : Objects => query.listing objects.rows) (pageOf query)
      (fun token at' => ∃ last, tokenKey token = some last ∧ at' ≤ last) query.max := by
  obtain ⟨count, size⟩ := Nat.exists_eq_succ_of_ne_zero query.max_pos.ne'
  have cursors := (@paging_after _ _ _ _ _ _ (listing_inOrder query) count).recode
      (Option.map keyToken) tokenKey fun objects after next answered => by
        obtain ⟨_, rfl⟩ := pageAfter_next answered
        exact tokenKey_keyToken _
  have same : pageOf query = fun objects token =>
      ((pageAfter Entry.key (count + 1) (query.listing objects.rows) (tokenKey token)).1,
        (pageAfter Entry.key (count + 1) (query.listing objects.rows) (tokenKey token)).2.map
          (Option.map keyToken)) := by
    funext objects token
    have page := pageEntries_shape { query with pageToken := token } objects.rows
    change query.max = count + 1 at size
    rw [← size]
    exact Prod.ext page.1 page.2
  rw [same, size]
  exact cursors

/-! ### Answers -/

/-- The entries of an answer, which has the objects and the common prefixes apart, by their keys. -/
def ObjectListing.entries (listing : ObjectListing) : List Entry :=
  (listing.items.map (fun object => Entry.item object.name) ++
    listing.prefixes.map Entry.common).mergeSort fun first second => decide (first.key ≤ second.key)

/-- The objects and the common prefixes of a page are all of its entries. -/
theorem apart_perm (page : List Listed) :
    ((page.filterMap fun
        | .item object => some object
        | .common _ => none).map (fun object => Entry.item object.name) ++
      (page.filterMap fun
        | .item _ => none
        | .common text => some text).map Entry.common).Perm (page.map Listed.shape) := by
  induction page with
  | nil => exact List.Perm.refl _
  | cons listed page ih =>
    cases listed with
    | item object => exact ih.cons _
    | common text => exact List.perm_middle.trans (ih.cons _)

/-- **The entries of an answer are those of the page, in their order.** -/
theorem entries_paginate {rows : List GcsObject} {query : ListQuery}
    (order : InOrder Entry.key ((pageEntries rows query).1.map Listed.shape)) :
    (paginate rows query).entries = (pageEntries rows query).1.map Listed.shape := by
  have perm : (paginate rows query).entries.Perm ((pageEntries rows query).1.map Listed.shape) :=
    (List.mergeSort_perm _ _).trans (apart_perm _)
  have sorted : (paginate rows query).entries.Pairwise fun first second =>
      first.key ≤ second.key := by
    refine (List.pairwise_mergeSort (fun first second third => ?_) (fun first second => ?_) _).imp
      fun le => of_decide_eq_true le
    · simp only [decide_eq_true_eq]
      exact le_trans
    · simp only [Bool.or_eq_true, decide_eq_true_eq]
      exact le_total _ _
  have distinct : (paginate rows query).entries.Pairwise fun first second =>
      first.key ≠ second.key :=
    (perm.pairwise_iff fun ne => ne.symm).mpr (order.imp fun less => less.ne)
  refine InOrder.unique ((sorted.and distinct).imp fun both => lt_of_le_of_ne both.1 both.2) order
    fun entry => perm.mem_iff

/-- A store that has the bucket; the names of its objects are different. -/
structure Holding (bucket : String) where
  store : GcsStore
  present : bucketExists store bucket = true
  distinct : ((store.objects.filter fun object => object.bucket == bucket).map GcsObject.name).Nodup

def Holding.objects {bucket : String} (held : Holding bucket) : Objects where
  rows := held.store.objects.filter fun object => object.bucket == bucket
  distinct := held.distinct

/-- One page, with the token that was given: the entries of the answer, and its next token. -/
def listPage {bucket : String} (query : ListQuery) (held : Holding bucket) (token : Option String) :
    List Entry × Option (Option String) :=
  match listObjects held.store bucket { query with pageToken := token } with
  | .ok listing => (listing.entries, listing.nextPageToken.map some)
  | .error _ => ([], none)

theorem listPage_pageOf {bucket : String} (query : ListQuery) (held : Holding bucket)
    (token : Option String) : listPage query held token = pageOf query held.objects token := by
  have answered : listObjects held.store bucket { query with pageToken := token } =
      .ok (paginate (rowsOf GcsObject.name query.keyPrefix held.objects.rows)
        { query with pageToken := token }) := by
    unfold listObjects
    rw [rejectIf_pass (by rw [held.present]; exact Bool.noConfusion)]
    rfl
  have order : InOrder Entry.key ((pageEntries (rowsOf GcsObject.name query.keyPrefix
      held.objects.rows) { query with pageToken := token }).1.map Listed.shape) := by
    rw [(pageEntries_shape { query with pageToken := token } held.objects.rows).1]
    exact (listing_inOrder { query with pageToken := token } held.objects).sublist
      ((List.take_sublist _ _).trans List.filter_sublist)
  rw [listPage, answered]
  exact Prod.ext (entries_paginate order) rfl

/-- The names of the bucket that a listing is about. -/
def Holding.lists {bucket : String} (query : ListQuery) (held : Holding bucket) : String → Prop :=
  query.lists held.objects

theorem listPage_paging (bucket : String) (query : ListQuery) :
    Paging Entry.key (fun held : Holding bucket => query.listing held.objects.rows) (listPage query)
      (fun token at' => ∃ last, tokenKey token = some last ∧ at' ≤ last) query.max := by
  have same : listPage query = fun (held : Holding bucket) token =>
      pageOf query held.objects token := by
    funext held token
    exact listPage_pageOf query held token
  rw [same]
  exact (pageOf_paging query).comap Holding.objects

/-- **A bucket is listed in pages exactly when its names can be found by the prefix.** -/
theorem listPage_lists {bucket : String} (query : ListQuery) (allowed : Holding bucket → Prop) :
    ListsInPages allowed (listPage query) none (Holding.lists query) query.keyPrefix query.delimText
        query.max ↔
      ∀ held, allowed held → Findable (held.lists query) query.keyPrefix :=
  (listPage_paging bucket query).listsInPages_iff (by rintro at' ⟨last, wrong, _⟩; cases wrong)
    fun _ _ => and_congr_right fun _ => skips_iff.symm

end CloudTwin.Gcs
