/-
**Listing from an index on.**

A call answers the entries from an index on, and the index behind them if there are more. What is
listed may change between two calls, and then the index stands for another place.

* `offsetPage` — a page from an index on; `addIndex` — the sum that must fit in a word.
* `AnswersAt` — calls that answer such pages; `Stable` — nothing changes before the index.
* `Reads.offsets` — then the pages together are what is listed at the last call.
-/

import CloudTwin.Lib.Paging

namespace CloudTwin.Lib

variable {ε τ ε' : Type}

/-- What stops a call: a token that is no index, or a sum that overflows. -/
inductive PageError where
  | invalid (message : String)
  | overflow
deriving DecidableEq

/-- The index behind a page, in a word of 64 bits. -/
def addIndex (start limit : Nat) : Except PageError Nat :=
  if start + limit < 2 ^ 64 then .ok (start + limit) else .error .overflow

theorem addIndex_ok {start limit : Nat} (small : start + limit < 2 ^ 64) :
    addIndex start limit = .ok (start + limit) :=
  if_pos small

/-- What follows the sum overflows only with the sum. -/
theorem addIndex_overflow {α : Type} (start limit : Nat) (next : Nat → α) :
    (addIndex start limit >>= fun stop => (pure (next stop) : Except PageError α)) =
      .error .overflow ↔ 2 ^ 64 ≤ start + limit := by
  by_cases small : start + limit < 2 ^ 64
  · rw [addIndex_ok small]
    exact ⟨nofun, fun wrong => absurd small (Nat.not_lt.mpr wrong)⟩
  · rw [addIndex, if_neg small]
    exact ⟨fun _ => Nat.le_of_not_lt small, fun _ => rfl⟩

/-- **What is listed**: each entry once, and no more than a vector can hold. -/
structure Listed (ε : Type) where
  rows : List ε
  once : rows.Nodup
  held : rows.length < 2 ^ 63

/-- A page from an index on, and the index behind it if there are more entries. -/
def offsetPage (max : Nat) (entries : List ε) (start : Nat) : List ε × Option Nat :=
  ((entries.drop start).take max, if start + max < entries.length then some (start + max) else none)

/-- The token stands for the index; without a token the index is zero. -/
def Stands (encode : Nat → τ) (start : Nat) (token : Option τ) : Prop :=
  token = none ∧ start = 0 ∨ token = some (encode start)

/-- The calls answer the pages from the index in the token, as long as the sum fits in a word. -/
def AnswersAt (call : Listed ε → Option τ → Except ε' (List ε × Option τ)) (max : Nat)
    (encode : Nat → τ) : Prop :=
  ∀ state start token, Stands encode start token → start + max < 2 ^ 64 → call state token =
    .ok ((offsetPage max state.rows start).1, (offsetPage max state.rows start).2.map encode)

/-- Between two calls nothing changes before the index that the first one returned. -/
def Stable (max : Nat) : Nat → List (Listed ε) → Prop
  | start, state :: next :: states =>
    next.rows.take (start + max) = state.rows.take (start + max) ∧
      Stable max (start + max) (next :: states)
  | _, _ => True

variable {max : Nat} {encode : Nat → τ}
  {call : Listed ε → Option τ → Except ε' (List ε × Option τ)}

/-- What stands before the index at the first call stands there at every later one. -/
theorem Stable.before : ∀ {states : List (Listed ε)} {start : Nat} {first : Listed ε},
    Stable max start (first :: states) → ∀ later ∈ states,
      later.rows.take (start + max) = first.rows.take (start + max)
  | [], _, _, _, _, member => absurd member List.not_mem_nil
  | next :: states, start, first, stable, later, member => by
    rcases List.mem_cons.mp member with rfl | further
    · exact stable.1
    · have kept := Stable.before stable.2 later further
      have shorter := congrArg (List.take (start + max)) kept
      rw [List.take_take, List.take_take, Nat.min_eq_left (Nat.le_add_right _ _)] at shorter
      rw [shorter, stable.1]

/-- A page and what stands behind it. -/
theorem page_append {state last : List ε} {start : Nat}
    (same : last.take (start + max) = state.take (start + max)) :
    (offsetPage max state start).1 ++ last.drop (start + max) = last.drop start := by
  have page : (offsetPage max state start).1 = (last.drop start).take max := by
    have cut := congrArg (List.drop start) same
    rw [List.drop_take, List.drop_take, Nat.add_sub_cancel_left] at cut
    exact cut.symm
  rw [page, ← List.drop_drop, List.take_append_drop]

/-- **The pages together are what is listed at the last call**, if nothing changed before an index. -/
theorem Reads.offsets (answers : AnswersAt call max encode) {token : Option τ}
    {states : List (Listed ε)} {pages : List (List ε)} (reads : Reads call token states pages) :
    ∀ start, Stands encode start token → start + max < 2 ^ 64 → Stable max start states →
      ∃ last ∈ states, pages.flatten = last.rows.drop start := by
  induction reads with
  | @last token state page answer =>
    intro start stands small stable
    rw [answers state start token stands small] at answer
    obtain ⟨rfl, none⟩ := Prod.mk.inj (Except.ok.inj answer)
    refine ⟨state, List.mem_singleton_self _, ?_⟩
    have ended : state.rows.length ≤ start + max := by
      refine Nat.le_of_not_lt fun more => ?_
      rw [offsetPage, if_pos more] at none
      cases none
    rw [List.flatten_singleton]
    refine List.take_of_length_le ?_
    rw [List.length_drop]
    omega
  | @next token state states page pages next answer reads ih =>
    intro start stands small stable
    rw [answers state start token stands small] at answer
    obtain ⟨rfl, some⟩ := Prod.mk.inj (Except.ok.inj answer)
    obtain ⟨index, returned, rfl⟩ := Option.map_eq_some_iff.mp some
    rw [offsetPage, Option.ite_none_right_eq_some] at returned
    obtain ⟨more, same⟩ := returned
    cases same
    have held := state.held
    have further : Stable max (start + max) states := by
      cases reads with
      | last _ => exact trivial
      | next _ _ => exact stable.2
    obtain ⟨last, member, whole⟩ := ih (start + max) (.inr rfl) (by omega) further
    refine ⟨last, List.mem_cons_of_mem _ member, ?_⟩
    rw [List.flatten_cons, whole]
    exact page_append (stable.before last member)

/-- **There is an end**, if nothing changes. -/
theorem exists_offsets (answers : AnswersAt call max encode) (some_entry : 0 < max)
    (state : Listed ε) {token : Option τ} (start : Nat) (stands : Stands encode start token)
    (small : start + max < 2 ^ 64) :
    ∃ states pages, Reads call token states pages ∧ ∀ other ∈ states, other = state := by
  generalize size : state.rows.length - start = left
  induction left using Nat.strong_induction_on generalizing start token with
  | _ left ih =>
    have answer := answers state start token stands small
    by_cases more : start + max < state.rows.length
    · rw [offsetPage, if_pos more] at answer
      have held := state.held
      obtain ⟨states, pages, reads, fixed⟩ :=
        ih (state.rows.length - (start + max)) (by omega) (start + max) (.inr rfl) (by omega) rfl
      exact ⟨state :: states, _, .next answer reads, fun other member =>
        (List.mem_cons.mp member).elim id (fixed other)⟩
    · rw [offsetPage, if_neg more] at answer
      exact ⟨[state], _, .last answer, fun other member => List.mem_singleton.mp member⟩

/-- **Every entry that is listed throughout is returned once**, if nothing changed before an index. -/
theorem Reads.offsets_once [DecidableEq ε] (answers : AnswersAt call max encode) (small : max < 2 ^ 64)
    {states : List (Listed ε)} {pages : List (List ε)} (reads : Reads call none states pages)
    (stable : Stable max 0 states) {entry : ε} (throughout : ∀ state ∈ states, entry ∈ state.rows) :
    pages.flatten.count entry = 1 := by
  obtain ⟨last, member, whole⟩ := reads.offsets answers 0 (.inl ⟨rfl, rfl⟩) (by omega) stable
  rw [whole, List.drop_zero]
  exact List.count_eq_one_of_mem last.once (throughout last member)

end CloudTwin.Lib
