/-
**Lists of pools, clients and users in pages** (`aws/cognito/handlers_api.rs`, `paginate`).

A token is the index behind the page. The sum of the index and the size of a page must fit in a `usize`.

* `tokenIndex`, `paginate` — the code.
* `paginate_at` — a page is that from the index in the token.
* `paginate_overflow` — which tokens overflow.
-/

import CloudTwin.Lib.Offsets
import CloudTwin.Lib.Utf8

namespace CloudTwin.Cognito

open Lib Lib.Text

variable {ρ : Type}

/-- The index that a token is. -/
def tokenIndex : Option String → Option Nat
  | some token => parseU64 token
  | none => some 0

/-- `paginate`. -/
def paginate (items : List ρ) (token : Option String) (limit : Nat) :
    Except PageError (List ρ × Option String) := do
  let start ← (match tokenIndex token with
    | some start => .ok start
    | none => .error (.invalid "Invalid pagination token.") : Except PageError Nat)
  let page := (items.drop start).take limit
  let stop ← addIndex start limit
  return (page, if stop < items.length then some (toString stop) else none)

theorem paginate_from {items : List ρ} {token : Option String} {start : Nat}
    (index : tokenIndex token = some start) (limit : Nat) :
    paginate items token limit = (addIndex start limit >>= fun stop => pure
      ((items.drop start).take limit, if stop < items.length then some (toString stop) else none)) := by
  unfold paginate
  rw [index]
  rfl

/-- **A page is that from the index in the token.** -/
theorem paginate_at (limit : Nat) :
    AnswersAt (fun (items : Listed ρ) token => paginate items.rows token limit) limit toString := by
  intro items start token stands small
  have index : tokenIndex token = some start := by
    rcases stands with ⟨rfl, rfl⟩ | rfl
    · rfl
    · exact parseU64_toString (by omega)
  have answer := @paginate_from ρ items.rows token start index limit
  rw [addIndex_ok small] at answer
  refine answer.trans ?_
  rw [offsetPage]
  show Except.ok _ = Except.ok _
  dsimp only
  split <;> rfl

/-- **Which requests overflow**: those whose index and size do not fit together in a word. -/
theorem paginate_overflow (items : List ρ) (token : Option String) (limit : Nat) :
    paginate items token limit = .error .overflow ↔
      ∃ start, tokenIndex token = some start ∧ 2 ^ 64 ≤ start + limit := by
  cases index : tokenIndex token with
  | none =>
    unfold paginate
    rw [index]
    exact ⟨nofun, fun ⟨_, wrong, _⟩ => nomatch wrong⟩
  | some start =>
    rw [paginate_from index, addIndex_overflow]
    exact ⟨fun large => ⟨start, rfl, large⟩, fun ⟨_, same, large⟩ => Option.some.inj same ▸ large⟩

end CloudTwin.Cognito
