/-
**Serial orders.**

A serial machine says of every operation whether it succeeds. `Serializes` is an order of operations
that all succeed and lead from one state to another; `Serializes.next` puts one more at its end.
-/

import CloudTwin.Lib.Machine

namespace CloudTwin.Lib

variable {σ ι : Type}

/-- The operations all succeed, in this order, and lead from the start to the stop. -/
def Serializes (serial : σ → ι → Bool × σ) (start : σ) (order : List ι) (stop : σ) : Prop :=
  stop = Run.final serial start order ∧
    ∀ event ∈ Run.trace serial start order, event.output = true

namespace Serializes

variable {serial : σ → ι → Bool × σ} {start stop : σ} {order : List ι}

theorem nil (serial : σ → ι → Bool × σ) (start : σ) : Serializes serial start [] start :=
  ⟨rfl, fun _ => nofun⟩

theorem next {operation : ι} (serializes : Serializes serial start order stop)
    (done : (serial stop operation).1 = true) :
    Serializes serial start (order ++ [operation]) (serial stop operation).2 := by
  obtain ⟨rfl, succeed⟩ := serializes
  refine ⟨by rw [Run.final_append]; rfl, fun event member => ?_⟩
  rw [Run.trace_append] at member
  rcases List.mem_append.mp member with old | new
  · exact succeed event old
  · rw [List.mem_singleton.mp new]
    exact done

/-- The first operation succeeds, and the others serialize what follows. -/
theorem first_done {operation : ι} (serializes : Serializes serial start (operation :: order) stop) :
    (serial start operation).1 = true ∧ Serializes serial (serial start operation).2 order stop := by
  obtain ⟨rfl, succeed⟩ := serializes
  exact ⟨succeed (Event.of serial start operation) (List.mem_cons_self ..), rfl,
    fun event member => succeed event (List.mem_cons_of_mem _ member)⟩

/-- An order cut in two. -/
theorem split {rest : List ι} (serializes : Serializes serial start (order ++ rest) stop) :
    ∃ middle, Serializes serial start order middle ∧ Serializes serial middle rest stop := by
  obtain ⟨rfl, succeed⟩ := serializes
  refine ⟨_, ⟨rfl, fun event member => succeed event ?_⟩, Run.final_append .., fun event member =>
    succeed event ?_⟩
  · rw [Run.trace_append]
    exact List.mem_append_left _ member
  · rw [Run.trace_append]
    exact List.mem_append_right _ member

/-- **The rule for serial orders.** If every step of a run leaves what is seen of the state alone, or
does to it what an operation does that succeeds, the operations serialize what is seen at the end. -/
theorem of_run {τ ι' ο : Type} {step : τ → ι' → ο × τ} {first last : τ}
    {history : List (Event τ ι' ο)} (view : τ → σ) (point : Event τ ι' ο → Option ι)
    (run : Run step first history last)
    (acts : ∀ event ∈ history, match point event with
      | none => view event.after = view event.before
      | some operation => serial (view event.before) operation = (true, view event.after)) :
    Serializes serial (view first) (history.filterMap point) (view last) := by
  induction run with
  | start => exact nil serial _
  | @next history event _ _ ih =>
    have before := ih fun earlier member => acts earlier (List.mem_append_left _ member)
    have act := acts event (by simp)
    rw [List.filterMap_append]
    cases pointed : point event with
    | none =>
      rw [pointed] at act
      simp only at act
      rw [List.filterMap_cons_none pointed, List.filterMap_nil, List.append_nil, act]
      exact before
    | some operation =>
      rw [pointed] at act
      simp only at act
      rw [List.filterMap_cons_some pointed, List.filterMap_nil]
      have done := Serializes.next before (congrArg Prod.fst act)
      rwa [act] at done

end Serializes

end CloudTwin.Lib
