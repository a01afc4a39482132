/-
**Lists of queues in pages** (`aws/sqs/service.rs`, `list_queues`, `list_dead_letter_source_queues`).

* `Names` — what is listed: names in order, none of them empty.
* `listQueues`, `listQueues_names`, `sources_names` — the services list such names.
* `paginate_behind` — a page is that behind the name in the token.
* `queues_enumerate` — a client that hands the tokens on sees every name once.
-/

import CloudTwin.Sqs.DeadLetterSources
import CloudTwin.Lib.Paging

namespace CloudTwin.Sqs

open Lib Lib.Text

/-- **Names as they are listed**: in order, each once, and none empty. -/
structure Names where
  rows : List String
  order : InOrder id rows
  named : ∀ name ∈ rows, name ≠ ""

section External

variable [external : External]

/-- `list_queues`. -/
def listQueues (store : Store) (baseUrl start : String) (max : Option Int)
    (nextToken : Option String) : Result (List String × Option String) := do
  let names := ((allQueues store).map SqsQueue.name).filter fun name => startsWith name start
  let (page, token) ← paginate names max nextToken
  return (page.map (queueUrl baseUrl), token)

/-- The names of the queues of a store that begin with a text. -/
def Names.ofQueues {store : Store} (tidy : Tidy store) (start : String) : Names where
  rows := ((allQueues store).map SqsQueue.name).filter fun name => startsWith name start
  order := (List.pairwise_map.mpr (allQueues_sorted tidy)).sublist List.filter_sublist
  named := by
    intro name member empty
    obtain ⟨source, listed, same⟩ := List.mem_map.mp (List.mem_of_mem_filter member)
    obtain ⟨row, stored, shape⟩ := mem_allQueues.mp listed
    have checked := tidy.named _ row stored
    have sourceName : source.name = row.name := by rw [shape]; rfl
    rw [← sourceName, same, empty] at checked
    exact absurd checked (by decide)

theorem listQueues_names {store : Store} (tidy : Tidy store) (baseUrl start : String)
    (max : Option Int) (nextToken : Option String) :
    listQueues store baseUrl start max nextToken =
      (paginate (Names.ofQueues tidy start).rows max nextToken).map fun answer =>
        (answer.1.map (queueUrl baseUrl), answer.2) := by
  unfold listQueues
  show (paginate (Names.ofQueues tidy start).rows max nextToken >>= _) = _
  cases paginate (Names.ofQueues tidy start).rows max nextToken with
  | error _ => rfl
  | ok _ => rfl

/-- The names of the queues whose policies state an ARN. -/
def Names.ofSources {store : Store} (tidy : Tidy store) (arn : String) : Names where
  rows := sourcesByArn store arn
  order := sourcesByArn_sorted tidy arn
  named := sourcesByArn_named tidy

theorem sources_names {store : Store} (tidy : Tidy store) (baseUrl : String) {queue : String}
    {target : SqsQueue} (found : getQueue store queue = .ok target) (max : Option Int)
    (nextToken : Option String) :
    listDeadLetterSourceQueues store baseUrl queue max nextToken =
      (paginate (Names.ofSources tidy target.arn).rows max nextToken).map fun answer =>
        (answer.1.map (queueUrl baseUrl), answer.2) := by
  unfold listDeadLetterSourceQueues
  rw [found]
  show (paginate (Names.ofSources tidy target.arn).rows max nextToken >>= _) = _
  cases paginate (Names.ofSources tidy target.arn).rows max nextToken with
  | error _ => rfl
  | ok _ => rfl

end External

/-- The token of a name. -/
def nameToken (name : String) : String :=
  Base64.urlSafeNoPadEncode (utf8 name)

theorem paginate_start {names : List String} {token : Option String} {start : Nat}
    (begins : pageStart names token = .ok start) {number : Int} (least : 1 ≤ number)
    (most : number ≤ 1000) :
    paginate names (some number) token =
      .ok ((names.drop start).take number.toNat,
        if start + ((names.drop start).take number.toNat).length < names.length then
          ((names.drop start).take number.toNat).getLast?.map nameToken else none) := by
  unfold pageStart at begins
  unfold paginate
  rw [begins]
  simp only [if_pos (And.intro least most), Option.isSome_some, and_true]
  rfl

theorem pageStart_token (names : List String) {last : String} (some' : last ≠ "") :
    pageStart names (some (nameToken last)) = .ok (names.findIdx fun name => decide (last < name)) := by
  have decoded : Base64.urlSafeNoPadDecode (nameToken last) = some (utf8 last) :=
    Base64.decode_encode _ _
  have given : (!(nameToken last).isEmpty) = true := by
    rw [nameToken, urlSafe_nonempty some']
    rfl
  unfold pageStart
  rw [Option.filter_some, if_pos given]
  simp only [decoded, fromUtf8Lossy_utf8]

/-- **A page is that behind the name in the token.** -/
theorem paginate_behind {number : Int} (least : 1 ≤ number) (most : number ≤ 1000) :
    AnswersBehind id Names.rows (fun names token => paginate names.rows (some number) token)
      number.toNat nameToken := by
  intro names after listed
  have begins : pageStart names.rows (after.map nameToken) =
      .ok (startBehind id names.rows after) := by
    cases after with
    | none => rfl
    | some last =>
      obtain ⟨name, state, member, same⟩ := listed last rfl
      exact pageStart_token names.rows fun empty => state.named name member (same.symm.trans empty)
  show paginate names.rows (some number) (after.map nameToken) = _
  rw [paginate_start begins least most]
  unfold pageBehind
  dsimp only
  split
  · rw [Option.map_id]
    rfl
  · rfl

/-- **A client that hands the tokens on sees every name once.** -/
theorem queues_enumerate {number : Int} (least : 1 ≤ number) (most : number ≤ 1000) :
    Enumerates Names.rows (fun names token => paginate names.rows (some number) token)
      number.toNat := by
  obtain ⟨count, size⟩ : ∃ count, number.toNat = count + 1 := ⟨number.toNat - 1, by omega⟩
  have served := paginate_behind least most
  rw [size] at served ⊢
  exact enumerates_behind served Names.order

end CloudTwin.Sqs
