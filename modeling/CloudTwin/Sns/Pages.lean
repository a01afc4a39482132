/-
**Lists of topics and subscriptions in pages** (`aws/sns/service.rs`, `page`).

* `encodeToken`, `decodeToken`, `page`, `listPage` — the code.
* `Keyed` — what is listed: rows in the order of their ARNs.
* `pages_enumerate` — the lists of queues, of topics and of subscriptions, read to their ends.
* `pages_enumerate_two` — two queues, one a page.
-/

import CloudTwin.Sqs.QueueListing

namespace CloudTwin.Sns

open Lib Lib.Text

/-- `encode_token`. -/
def encodeToken (s : String) : String :=
  Base64.urlSafeNoPadEncode (utf8 s)

/-- `decode_token`: an empty token is none; the error is the message of `InvalidParameter`. -/
def decodeToken (token : Option String) : Except String (Option String) :=
  match token.filter fun token => !token.isEmpty with
  | none => .ok none
  | some token =>
    match Base64.urlSafeNoPadDecode token with
    | some bytes => .ok (some (fromUtf8Lossy bytes))
    | none => .error "Invalid parameter: NextToken"

variable {ρ : Type}

/-- `page`: at most `limit` of the items, which are sorted by key, after the `after` key. -/
def page (items : List ρ) (key : ρ → String) (after : Option String) (limit : Nat) :
    List ρ × Option String :=
  let start := match after with
    | some last => items.findIdx fun item => last < key item
    | none => 0
  let page := (items.drop start).take limit
  (page,
    if start + page.length < items.length then
      page.getLast?.map fun last => encodeToken (key last)
    else none)

/-- A list request: the page after the token that was given. -/
def listPage (items : List ρ) (key : ρ → String) (limit : Nat) (nextToken : Option String) :
    Except String (List ρ × Option String) := do
  let after ← decodeToken nextToken
  return page items key after limit

/-- **Rows as they are listed**: in the order of their keys, each once, no key empty. -/
structure Keyed (key : ρ → String) where
  rows : List ρ
  order : InOrder key rows
  named : ∀ row ∈ rows, key row ≠ ""

theorem page_eq (items : List ρ) (key : ρ → String) (after : Option String) (limit : Nat) :
    page items key after limit =
      ((pageBehind key limit items after).1,
        (pageBehind key limit items after).2.map encodeToken) := by
  have same : page items key after limit =
      ((pageBehind key limit items after).1,
        if startBehind key items after + (pageBehind key limit items after).1.length < items.length then
          (pageBehind key limit items after).1.getLast?.map fun last => encodeToken (key last)
        else none) := by
    cases after <;> rfl
  rw [same]
  unfold pageBehind
  dsimp only
  split
  · rw [Option.map_map]
    rfl
  · rfl

theorem decodeToken_encoded {last : String} (some' : last ≠ "") :
    decodeToken (some (encodeToken last)) = .ok (some last) := by
  have decoded : Base64.urlSafeNoPadDecode (encodeToken last) = some (utf8 last) :=
    Base64.decode_encode _ _
  have given : (!(encodeToken last).isEmpty) = true := by
    rw [encodeToken, Sqs.urlSafe_nonempty some']
    rfl
  unfold decodeToken
  rw [Option.filter_some, if_pos given]
  simp only [decoded, fromUtf8Lossy_utf8]

/-- **A page is that behind the key in the token.** -/
theorem listPage_behind (key : ρ → String) (limit : Nat) :
    AnswersBehind key (fun items : Keyed key => items.rows) (fun items => listPage items.rows key limit) limit
      encodeToken := by
  intro items after listed
  have decoded : decodeToken (after.map encodeToken) = .ok after := by
    cases after with
    | none => rfl
    | some last =>
      obtain ⟨row, state, member, rfl⟩ := listed last rfl
      exact decodeToken_encoded (state.named row member)
  show listPage items.rows key limit (after.map encodeToken) = _
  rw [listPage, decoded, ← page_eq]
  rfl

/-- **Lists in pages enumerate everything once**, for every page size: the lists of queues and the lists
by ARN. What the queue services list are such names. -/
theorem pages_enumerate [DecidableEq ρ] (key : ρ → String) {number : Int} (least : 1 ≤ number)
    (most : number ≤ 1000) :
    Enumerates Sqs.Names.rows (fun names token => Sqs.paginate names.rows (some number) token)
        number.toNat ∧
      Enumerates (fun items : Keyed key => items.rows) (fun items => listPage items.rows key number.toNat)
        number.toNat ∧
      ∀ [External] {store : Sqs.Store} (tidy : Sqs.Tidy store) (baseUrl : String) (token : Option String),
        (∀ start, Sqs.listQueues store baseUrl start (some number) token =
          (Sqs.paginate (Sqs.Names.ofQueues tidy start).rows (some number) token).map fun answer =>
            (answer.1.map (Sqs.queueUrl baseUrl), answer.2)) ∧
        ∀ queue target, Sqs.getQueue store queue = .ok target →
          Sqs.listDeadLetterSourceQueues store baseUrl queue (some number) token =
            (Sqs.paginate (Sqs.Names.ofSources tidy target.arn).rows (some number) token).map fun answer =>
              (answer.1.map (Sqs.queueUrl baseUrl), answer.2) := by
  refine ⟨Sqs.queues_enumerate least most, ?_, fun tidy baseUrl token =>
    ⟨fun start => Sqs.listQueues_names tidy baseUrl start _ token, fun queue target found =>
      Sqs.sources_names tidy baseUrl found _ token⟩⟩
  obtain ⟨count, size⟩ : ∃ count, number.toNat = count + 1 := ⟨number.toNat - 1, by omega⟩
  rw [size]
  exact enumerates_behind (listPage_behind key (count + 1)) Keyed.order

def twoNames : Sqs.Names where
  rows := ["a", "b"]
  order := List.pairwise_pair.mpr (by decide)
  named := by decide

def twoArns : Keyed (fun arn : String => arn) where
  rows := ["a", "b"]
  order := List.pairwise_pair.mpr (by decide)
  named := by decide

/-- Two queues and two topics, one a page. -/
theorem pages_enumerate_two :
    (∃ states pages, Reads (fun (names : Sqs.Names) token => Sqs.paginate names.rows (some 1) token) none
        states pages ∧ (∀ other ∈ states, other = twoNames) ∧ pages.flatten = ["a", "b"]) ∧
      ∃ states pages, Reads (fun (items : Keyed fun arn : String => arn) =>
          listPage items.rows (fun arn => arn) 1) none states pages ∧
        (∀ other ∈ states, other = twoArns) ∧ pages.flatten = ["a", "b"] := by
  obtain ⟨queues, arns, -⟩ :=
    pages_enumerate (fun arn : String => arn) (by decide : (1 : Int) ≤ 1) (by decide)
  obtain ⟨states, pages, reads, fixed⟩ := queues.ends twoNames
  obtain ⟨others, more, readsArns, fixedArns⟩ := arns.ends twoArns
  exact ⟨⟨states, pages, reads, fixed, queues.whole states pages reads twoNames fixed⟩,
    others, more, readsArns, fixedArns, arns.whole others more readsArns twoArns fixedArns⟩

end CloudTwin.Sns
