/-
**Transactions.**

A transaction is a function from a state that fails with an error or returns a value and a new
state. A failed transaction is rolled back: it leaves the state as it was.

* `bind_ok`, `ok_bind` and `rejectIf_ok` — how a computation in steps succeeds; `bind_congr_ok`,
  `map_bind_congr` — when two such computations agree.
* `commit` and `taken_commit` — the step of a state machine that runs one transaction, and what the
  step can be: a failure that changes nothing, or a success.
-/

import CloudTwin.Lib.Machine

namespace CloudTwin.Lib

variable {ε σ ι α β : Type}

/-- A computation in steps succeeds when each step does. -/
theorem bind_ok {first : Except ε α} {rest : α → Except ε β} {value : β}
    (done : (first >>= rest) = .ok value) :
    ∃ middle, first = .ok middle ∧ rest middle = .ok value := by
  cases first with
  | error error => cases done
  | ok middle => exact ⟨middle, rfl, done⟩

/-- A computation goes on with the value of its first step. -/
theorem ok_bind {first : Except ε α} {rest : α → Except ε β} {value : α} {result : Except ε β}
    (done : first = .ok value) (next : rest value = result) : (first >>= rest) = result := by
  rw [done]
  exact next

/-- Computations that go on in the same way where they get to, as far as a part of the result is
concerned. -/
theorem map_bind_congr {γ : Type} {part : β → γ} {first : Except ε α} {rest rest' : α → Except ε β}
    (same : ∀ value, first = .ok value → (rest value).map part = (rest' value).map part) :
    (first >>= rest).map part = (first >>= rest').map part := by
  cases first with
  | error error => rfl
  | ok value => exact same value rfl

theorem bind_congr_ok {first : Except ε α} {rest rest' : α → Except ε β}
    (same : ∀ value, first = .ok value → rest value = rest' value) :
    (first >>= rest) = (first >>= rest') := by
  cases first with
  | error error => rfl
  | ok value => exact same value rfl

/-- `if condition { return Err(error) }`. -/
def rejectIf (condition : Prop) [Decidable condition] (error : ε) : Except ε Unit :=
  if condition then .error error else .ok ()

theorem rejectIf_ok {condition : Prop} [Decidable condition] {error : ε} {value : Unit} :
    rejectIf condition error = .ok value ↔ ¬ condition := by
  unfold rejectIf
  by_cases here : condition
  · simp [here]
  · simp [here]

theorem rejectIf_pass {condition : Prop} [Decidable condition] {error : ε}
    (passed : ¬ condition) : rejectIf condition error = .ok () :=
  rejectIf_ok.mpr passed

/-- `option.ok_or(error)`. -/
def okOr (option : Option α) (error : ε) : Except ε α :=
  match option with
  | some value => .ok value
  | none => .error error

theorem okOr_ok {option : Option α} {error : ε} {value : α} :
    okOr option error = .ok value ↔ option = some value := by
  cases option with
  | none => simp [okOr]
  | some found => simp [okOr]

/-- **The step that runs a transaction**: a success is committed, a failure rolled back. -/
def commit (transaction : σ → ι → Except ε (α × σ)) (state : σ) (input : ι) : Except ε α × σ :=
  match transaction state input with
  | .ok (value, after) => (.ok value, after)
  | .error error => (.error error, state)

theorem commit_ok {transaction : σ → ι → Except ε (α × σ)} {state after : σ} {input : ι} {value : α}
    (done : transaction state input = .ok (value, after)) :
    commit transaction state input = (.ok value, after) := by
  rw [commit, done]

theorem commit_error {transaction : σ → ι → Except ε (α × σ)} {state : σ} {input : ι} {error : ε}
    (done : transaction state input = .error error) :
    commit transaction state input = (.error error, state) := by
  rw [commit, done]

/-- **What a step can be**: a failure that changes nothing, or a transaction that succeeded. -/
theorem taken_commit {transaction : σ → ι → Except ε (α × σ)} {event : Event σ ι (Except ε α)}
    (taken : event.Taken (commit transaction)) :
    (∃ error, event.output = .error error ∧ event.after = event.before) ∨
      ∃ value, event.output = .ok value ∧
        transaction event.before event.input = .ok (value, event.after) := by
  rw [Event.Taken] at taken
  cases done : transaction event.before event.input with
  | error error =>
    rw [commit_error done] at taken
    obtain ⟨output, after⟩ := Prod.mk.inj taken
    exact Or.inl ⟨error, output.symm, after.symm⟩
  | ok result =>
    obtain ⟨value, stored⟩ := result
    rw [commit_ok done] at taken
    obtain ⟨output, after⟩ := Prod.mk.inj taken
    exact Or.inr ⟨value, output.symm, after ▸ rfl⟩

/-- A step that answered with a value ran its transaction. -/
theorem taken_ok {transaction : σ → ι → Except ε (α × σ)} {event : Event σ ι (Except ε α)}
    {value : α} (taken : event.Taken (commit transaction)) (answered : event.output = .ok value) :
    transaction event.before event.input = .ok (value, event.after) := by
  rcases taken_commit taken with ⟨_, failed, _⟩ | ⟨_, output, done⟩
  · rw [failed] at answered
    cases answered
  · rw [output] at answered
    cases answered
    exact done

end CloudTwin.Lib
