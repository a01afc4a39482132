/-
**Lists of identities and suppressed destinations in pages** (`aws/ses/handlers_v2.rs`, `paginate`).

A token is the next index; one that is no number stands for the start.

* `paginate` — the code; `paginate_at`, `paginate_overflow` — its pages and what overflows.
* `offsets_complete` — what a client sees, here and in the lists of Cognito, if nothing changes before
  the index it holds.
* `deleted_page_skips` — a page that is deleted as soon as it is read.
-/

import CloudTwin.Cognito.Pages

namespace CloudTwin.Ses

open Lib Lib.Text

variable {ρ : Type}

/-- The size of a page: a thousand if none is asked for. -/
def sizeOf (pageSize : Option Nat) : Nat :=
  (pageSize.filter fun size => decide (0 < size)).getD 1000

/-- The index of a token. -/
def startOf (token : Option String) : Nat :=
  (token.bind parseU64).getD 0

/-- `paginate`: `items.get(start..end)` is nothing if the end comes before the start. -/
def paginate (items : List ρ) (token : Option String) (pageSize : Option Nat) :
    Except PageError (List ρ × Option String) := do
  let start := startOf token
  let stop ← addIndex start (sizeOf pageSize)
  let stop := min stop items.length
  let page := if start ≤ stop then (items.drop start).take (stop - start) else []
  return (page, if stop < items.length then some (toString stop) else none)

/-- **A page is that from the index in the token.** -/
theorem paginate_at (pageSize : Option Nat) :
    AnswersAt (fun (items : Listed ρ) token => paginate items.rows token pageSize) (sizeOf pageSize)
      toString := by
  intro items start token stands small
  have index : startOf token = start := by
    rcases stands with ⟨rfl, rfl⟩ | rfl
    · rfl
    · have parsed := @parseU64_toString start (by omega)
      show ((some (toString start)).bind parseU64).getD 0 = start
      rw [Option.bind_some, parsed]
      rfl
  show paginate items.rows token pageSize = _
  unfold paginate
  rw [index]
  show (addIndex start (sizeOf pageSize) >>= _) = _
  rw [addIndex_ok small, offsetPage]
  generalize sizeOf pageSize = size
  show Except.ok _ = Except.ok _
  dsimp only
  congr 2
  · by_cases inside : start ≤ min (start + size) items.rows.length
    · rw [if_pos inside]
      refine List.take_eq_take_iff.mpr ?_
      rw [List.length_drop]
      omega
    · rw [if_neg inside, List.drop_of_length_le (by omega), List.take_nil]
  · by_cases more : start + size < items.rows.length
    · rw [Nat.min_eq_left (Nat.le_of_lt more), if_pos more, if_pos more]
      rfl
    · rw [if_neg more, if_neg (by omega)]
      rfl

theorem paginate_overflow (items : List ρ) (token : Option String) (pageSize : Option Nat) :
    paginate items token pageSize = .error .overflow ↔
      2 ^ 64 ≤ startOf token + sizeOf pageSize :=
  addIndex_overflow _ _ _

theorem sizeOf_pos (pageSize : Option Nat) : 0 < sizeOf pageSize := by
  unfold sizeOf
  cases given : pageSize.filter fun size => decide (0 < size) with
  | none => exact Nat.succ_pos _
  | some size => exact of_decide_eq_true (Option.filter_eq_some_iff.mp given).2

/-- **A client that hands each index on**: what it sees if nothing changes before the index, and that
there is an end. -/
structure Complete (call : Listed ρ → Option String → Except PageError (List ρ × Option String))
    (max : Nat) [DecidableEq ρ] : Prop where
  once : ∀ states pages, Reads call none states pages → Stable max 0 states → ∀ entry,
    (∀ state ∈ states, entry ∈ state.rows) → pages.flatten.count entry = 1
  ends : ∀ state, ∃ states pages, Reads call none states pages ∧ ∀ other ∈ states, other = state

theorem complete_of_answers [DecidableEq ρ] {max : Nat}
    {call : Listed ρ → Option String → Except PageError (List ρ × Option String)}
    (answers : AnswersAt call max toString) (some_entry : 0 < max) (word : max < 2 ^ 64) :
    Complete call max where
  once := fun _ _ reads stable _ throughout => reads.offsets_once answers word stable throughout
  ends := fun state =>
    exists_offsets answers some_entry state 0 (.inl ⟨rfl, rfl⟩) (by rw [Nat.zero_add]; exact word)

/-- **Offset paging is complete while nothing changes before the index**, and overflows just for the
tokens whose index and the size of the page do not fit together in a word. -/
theorem offsets_complete [DecidableEq ρ] {limit : Nat} (some_entry : 0 < limit) (word : limit < 2 ^ 64)
    {pageSize : Option Nat} (sized : sizeOf pageSize < 2 ^ 64) :
    Complete (fun (items : Listed ρ) token => Cognito.paginate items.rows token limit) limit ∧
    Complete (fun (items : Listed ρ) token => paginate items.rows token pageSize) (sizeOf pageSize) ∧
    ∀ (items : List ρ) (token : Option String),
      (Cognito.paginate items token limit = .error .overflow ↔
        ∃ start, Cognito.tokenIndex token = some start ∧ 2 ^ 64 ≤ start + limit) ∧
      (paginate items token pageSize = .error .overflow ↔
        2 ^ 64 ≤ startOf token + sizeOf pageSize) :=
  ⟨complete_of_answers (Cognito.paginate_at limit) some_entry word,
    complete_of_answers (paginate_at pageSize) (sizeOf_pos pageSize) sized,
    fun items token => ⟨Cognito.paginate_overflow items token limit,
      paginate_overflow items token pageSize⟩⟩

/-- Two entries, of which the second is listed throughout. -/
def bothListed : Listed String where
  rows := ["a", "b"]
  once := by decide
  held := by decide

def laterListed : Listed String where
  rows := ["b"]
  once := by decide
  held := by decide

/-- The entries, and one that is added behind the index. -/
def moreListed : Listed String where
  rows := ["a", "b", "c"]
  once := by decide
  held := by decide

/-- An entry is added behind the index while the pages are read, one entry a page. -/
theorem offsets_complete_sample :
    (∃ pages, Reads (fun (items : Listed String) token => Cognito.paginate items.rows token 1) none
        [bothListed, moreListed, moreListed] pages ∧ pages.flatten.count "b" = 1) ∧
    (∃ pages, Reads (fun (items : Listed String) token => paginate items.rows token (some 1)) none
        [bothListed, moreListed, moreListed] pages ∧ pages.flatten.count "b" = 1) ∧
    Cognito.paginate ["a"] (some "18446744073709551615") 1 = .error .overflow := by
  obtain ⟨codes, templates, overflow⟩ :=
    @offsets_complete String _ 1 (by decide) (by decide) (some 1) (by decide)
  have stable : Stable 1 0 [bothListed, moreListed, moreListed] := ⟨rfl, rfl, trivial⟩
  have both : ∀ state ∈ [bothListed, moreListed, moreListed], "b" ∈ state.rows := by
    intro state member
    simp only [List.mem_cons, List.not_mem_nil, or_false] at member
    rcases member with rfl | rfl | rfl <;> decide
  have first : Reads (fun (items : Listed String) token => Cognito.paginate items.rows token 1) none
      [bothListed, moreListed, moreListed] [["a"], ["b"], ["c"]] :=
    @Reads.next _ _ _ _ _ none bothListed [moreListed, moreListed] ["a"] [["b"], ["c"]] "1" rfl
      (@Reads.next _ _ _ _ _ (some "1") moreListed [moreListed] ["b"] [["c"]] "2" rfl (.last rfl))
  have second : Reads (fun (items : Listed String) token => paginate items.rows token (some 1)) none
      [bothListed, moreListed, moreListed] [["a"], ["b"], ["c"]] :=
    @Reads.next _ _ _ _ _ none bothListed [moreListed, moreListed] ["a"] [["b"], ["c"]] "1" rfl
      (@Reads.next _ _ _ _ _ (some "1") moreListed [moreListed] ["b"] [["c"]] "2" rfl (.last rfl))
  exact ⟨⟨_, first, codes.once _ _ first stable "b" both⟩,
    ⟨_, second, templates.once _ _ second stable "b" both⟩,
    (overflow ["a"] (some "18446744073709551615")).1.mpr ⟨18446744073709551615, by decide, by decide⟩⟩

/-- A page that is deleted as soon as it is read makes the next one skip, in both; and a token that is
accepted overflows. -/
theorem deleted_page_skips :
    (∃ pages, Reads (fun (items : Listed String) token => Cognito.paginate items.rows token 1) none
        [bothListed, laterListed] pages ∧ pages.flatten.count "b" = 0) ∧
    (∃ pages, Reads (fun (items : Listed String) token => paginate items.rows token (some 1)) none
        [bothListed, laterListed] pages ∧ pages.flatten.count "b" = 0) ∧
    Cognito.paginate ["a"] (some "18446744073709551615") 60 = .error .overflow ∧
    paginate ["a"] (some "18446744073709551615") none = .error .overflow := by
  refine ⟨⟨[["a"], []], ?_, by decide⟩, ⟨[["a"], []], ?_, by decide⟩, by decide,
    by decide⟩
  · exact @Reads.next _ _ _ _ _ none bothListed [laterListed] ["a"] [[]] "1" rfl (.last rfl)
  · exact @Reads.next _ _ _ _ _ none bothListed [laterListed] ["a"] [[]] "1" rfl (.last rfl)

end CloudTwin.Ses
