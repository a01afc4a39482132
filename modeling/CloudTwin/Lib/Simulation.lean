/-
**Simulation between machines, and clients that stand for clients.**

A run of one machine is answered by a run of another when every step is: a relation between the two
states holds at the start, and each step of the first machine is matched by steps of the second, or
by none.

* `Run.simulated` — a machine whose steps are matched has its runs matched.
* `System.block` and `Run.expanded` — a system whose every client does the work of many: if each
  step of a client leaves the shared state alone or is a step of one of the clients it stands for,
  then a run of the system is a run of those clients.
-/

import CloudTwin.Lib.Machine
import Mathlib.Data.Nat.Pairing

namespace CloudTwin.Lib

variable {σ ι ο σ' ι' ο' : Type}

/-- **A run is simulated when its steps are.** -/
theorem Run.simulated {step : σ → ι → ο × σ} {step' : σ' → ι' → ο' × σ'} {start stop : σ}
    {start' : σ'} {history : List (Event σ ι ο)} (Related : σ → σ' → Prop)
    (run : Run step start history stop) (initial : Related start start')
    (matched : ∀ event : Event σ ι ο, event.Taken step → ∀ state, Related event.before state →
      ∃ steps after, Run step' state steps after ∧ Related event.after after) :
    ∃ steps stop', Run step' start' steps stop' ∧ Related stop stop' := by
  induction run with
  | start => exact ⟨[], start', Run.start, initial⟩
  | @next history event _ taken ih =>
    obtain ⟨steps, state, past, related⟩ := ih
    obtain ⟨more, after, run, kept⟩ := matched event taken state related
    exact ⟨steps ++ more, after, past.append run, kept⟩

/-! ### Clients that stand for clients -/

variable {κ κ' μ μ' : Type}

namespace System

/-- The clients that one client of another system stands for. -/
def block (system : System σ κ) (client : Nat) : Nat → κ :=
  fun index => system.client (Nat.pair client index)

/-- A step of one client of a block changes the block at its place. -/
theorem block_step_self (advance : σ → κ → μ → ο × σ × κ) (system : System σ κ) (client index : Nat)
    (move : μ) :
    (System.step advance system (Nat.pair client index, move)).2.block client =
      Function.update (system.block client) index
        (advance system.shared (system.block client index) move).2.2 := by
  funext other
  by_cases same : other = index
  · rw [same, Function.update_self]
    exact Function.update_self _ _ _
  · rw [Function.update_of_ne same]
    refine Function.update_of_ne (fun equal => same ?_) _ _
    exact (Nat.pair_eq_pair.mp equal).2

/-- It leaves every other block as it is. -/
theorem block_step_of_ne (advance : σ → κ → μ → ο × σ × κ) (system : System σ κ)
    {client other : Nat} (different : other ≠ client) (index : Nat) (move : μ) :
    (System.step advance system (Nat.pair client index, move)).2.block other =
      system.block other := by
  funext place
  refine Function.update_of_ne (fun equal => different ?_) _ _
  exact (Nat.pair_eq_pair.mp equal).1

end System

/-- **The rule for clients that stand for clients.** -/
theorem Run.expanded {outer : σ → κ → μ → ο × σ × κ} {inner : σ → κ' → μ' → ο' × σ × κ'}
    {start stop : System σ κ} {start' : System σ κ'}
    {history : List (Event (System σ κ) (Nat × μ) ο)} (Stands : Nat → κ → (Nat → κ') → Prop)
    (run : Run (System.step outer) start history stop) (shared : start'.shared = start.shared)
    (initial : ∀ client, Stands client (start.client client) (start'.block client))
    (each : ∀ client state store move block, Stands client state block →
      (outer store state move).2.1 = store ∧ Stands client (outer store state move).2.2 block ∨
      ∃ index call, (inner store (block index) call).2.1 = (outer store state move).2.1 ∧
        Stands client (outer store state move).2.2
          (Function.update block index (inner store (block index) call).2.2)) :
    ∃ steps stop', Run (System.step inner) start' steps stop' ∧ stop'.shared = stop.shared ∧
      ∀ client, Stands client (stop.client client) (stop'.block client) := by
  let Related (state : System σ κ) (state' : System σ κ') : Prop :=
    state'.shared = state.shared ∧
      ∀ client, Stands client (state.client client) (state'.block client)
  refine Run.simulated Related run ⟨shared, initial⟩ ?_
  intro event taken state ⟨same, stands⟩
  obtain ⟨moved, others⟩ := System.taken_advance taken
  have rule := each _ _ event.before.shared event.input.2 _ (stands event.input.1)
  rw [moved] at rule
  rcases rule with ⟨still, kept⟩ | ⟨index, call, acted, kept⟩
  · refine ⟨[], state, Run.start, same.trans still.symm, fun client => ?_⟩
    by_cases here : client = event.input.1
    · rw [here]
      exact kept
    · rw [others client here]
      exact stands client
  · have single := Run.single (Event.of_taken (System.step inner) state
      (Nat.pair event.input.1 index, call))
    refine ⟨_, _, single, ?_, fun client => ?_⟩
    · rw [← same] at acted
      exact acted
    · rw [← same] at kept
      by_cases here : client = event.input.1
      · rw [here]
        exact (System.block_step_self inner state event.input.1 index call).symm ▸ kept
      · rw [others client here]
        exact (System.block_step_of_ne inner state here index call).symm ▸ stands client

end CloudTwin.Lib
