/-
**Runs of a state machine, and of clients that share one.**

A machine is a function that takes a state and an input to an output and a state. A run is the list
of the steps it took, oldest first, each with the state on both sides, so that a property can speak
about what happened before, after and between two steps.

* `Run.invariant` — what the start has and every step keeps, every run keeps; `Run.invariant_along`
  asks it of the steps of one run only, `Run.invariant_before` says it of the state before each step.
* `Run.invariant_unless` — what every step keeps or excuses: a run keeps it, or one of its steps is
  an excuse.
* `Run.since` — the step after which a property has held ever since.
* `Run.around` — a run cut at one of its steps.
* `System` and `Run.interleaved` — clients that each take their own steps on a shared state, in any
  order, and the rule for what holds of the shared state and of every client: a step keeps what
  holds of its own client and disturbs no other.
* `Run.linearized` — a run whose steps act on a part of the state one after the other is a run of a
  serial machine on that part.
-/

import Mathlib.Data.List.Basic
import Mathlib.Data.List.Induction
import Mathlib.Logic.Function.Basic

namespace CloudTwin.Lib

variable {σ ι ο : Type}

/-- A step that was taken. -/
structure Event (σ ι ο : Type) where
  before : σ
  input : ι
  output : ο
  after : σ

def Event.Taken (step : σ → ι → ο × σ) (event : Event σ ι ο) : Prop :=
  step event.before event.input = (event.output, event.after)

/-- The step the machine takes on an input. -/
def Event.of (step : σ → ι → ο × σ) (state : σ) (input : ι) : Event σ ι ο where
  before := state
  input := input
  output := (step state input).1
  after := (step state input).2

theorem Event.of_taken (step : σ → ι → ο × σ) (state : σ) (input : ι) :
    (Event.of step state input).Taken step := rfl

/-- **A run**: each step starts in the state where the one before it ended. -/
inductive Run (step : σ → ι → ο × σ) (start : σ) : List (Event σ ι ο) → σ → Prop
  | start : Run step start [] start
  | next {history : List (Event σ ι ο)} {event : Event σ ι ο}
      (run : Run step start history event.before) (taken : event.Taken step) :
      Run step start (history ++ [event]) event.after

/-- The readings of a clock do not decrease along the history. -/
def Clocked (time : ι → Int) (history : List (Event σ ι ο)) : Prop :=
  history.Pairwise fun first second => time first.input ≤ time second.input

namespace Clocked

variable {time : ι → Int} {history : List (Event σ ι ο)} {event : Event σ ι ο}

theorem past (clocked : Clocked time (history ++ [event])) : Clocked time history :=
  (List.pairwise_append.mp clocked).1

theorem later (clocked : Clocked time (history ++ [event])) :
    ∀ earlier ∈ history, time earlier.input ≤ time event.input :=
  fun earlier member =>
    (List.pairwise_append.mp clocked).2.2 earlier member event (List.mem_singleton_self _)

end Clocked

namespace Run

variable {step : σ → ι → ο × σ} {start stop : σ} {history : List (Event σ ι ο)}

theorem single {event : Event σ ι ο} (taken : event.Taken step) :
    Run step event.before [event] event.after := by
  have run : Run step event.before ([] ++ [event]) event.after := Run.next Run.start taken
  exact run

theorem append {middle : σ} {rest : List (Event σ ι ο)} (run : Run step start history middle)
    (runRest : Run step middle rest stop) : Run step start (history ++ rest) stop := by
  induction runRest with
  | start => rwa [List.append_nil]
  | next _ taken ih =>
    rw [← List.append_assoc]
    exact Run.next ih taken

theorem cons {event : Event σ ι ο} {rest : List (Event σ ι ο)} (taken : event.Taken step)
    (runRest : Run step event.after rest stop) : Run step event.before (event :: rest) stop :=
  (single taken).append runRest

/-- The last step of a run. -/
theorem last {event : Event σ ι ο} (run : Run step start (history ++ [event]) stop) :
    Run step start history event.before ∧ event.Taken step ∧ event.after = stop := by
  generalize same : history ++ [event] = whole at run
  cases run with
  | start => simp at same
  | next run taken =>
    obtain ⟨rfl, equal⟩ := List.append_inj' same rfl
    cases equal
    exact ⟨run, taken, rfl⟩

/-- A run cut in two. -/
theorem split {rest : List (Event σ ι ο)} (run : Run step start (history ++ rest) stop) :
    ∃ middle, Run step start history middle ∧ Run step middle rest stop := by
  induction rest using List.reverseRecOn generalizing stop with
  | nil => exact ⟨stop, by rwa [List.append_nil] at run, Run.start⟩
  | append_singleton rest event ih =>
    rw [← List.append_assoc] at run
    obtain ⟨runPast, taken, rfl⟩ := run.last
    obtain ⟨middle, first, second⟩ := ih runPast
    exact ⟨middle, first, Run.next second taken⟩

/-- **A run around one of its steps.** -/
theorem around {event : Event σ ι ο} {rest : List (Event σ ι ο)}
    (run : Run step start (history ++ event :: rest) stop) :
    Run step start history event.before ∧ event.Taken step ∧
      Run step event.after rest stop := by
  rw [show history ++ event :: rest = (history ++ [event]) ++ rest by simp] at run
  obtain ⟨middle, first, second⟩ := run.split
  obtain ⟨past, taken, rfl⟩ := first.last
  exact ⟨past, taken, second⟩

theorem taken_of_mem (run : Run step start history stop) :
    ∀ event ∈ history, event.Taken step := by
  intro event member
  obtain ⟨past, rest, rfl⟩ := List.append_of_mem member
  exact run.around.2.1

/-! ### Running a machine -/

/-- The steps the machine takes on a list of inputs. -/
def trace (step : σ → ι → ο × σ) : σ → List ι → List (Event σ ι ο)
  | _, [] => []
  | state, input :: rest => Event.of step state input :: trace step (step state input).2 rest

/-- The state after a list of inputs. -/
def final (step : σ → ι → ο × σ) (state : σ) (inputs : List ι) : σ :=
  inputs.foldl (fun state input => (step state input).2) state

theorem final_append (step : σ → ι → ο × σ) (state : σ) (first second : List ι) :
    final step state (first ++ second) = final step (final step state first) second :=
  List.foldl_append

theorem trace_inputs (step : σ → ι → ο × σ) (inputs : List ι) :
    ∀ state, (trace step state inputs).map Event.input = inputs := by
  induction inputs with
  | nil => exact fun _ => rfl
  | cons input rest ih => exact fun state => congrArg (input :: ·) (ih _)

theorem of_trace (step : σ → ι → ο × σ) (inputs : List ι) :
    ∀ state, Run step state (trace step state inputs) (final step state inputs) := by
  induction inputs with
  | nil => exact fun _ => Run.start
  | cons input rest ih =>
    intro state
    exact cons (Event.of_taken step state input) (ih (step state input).2)

theorem trace_append (step : σ → ι → ο × σ) (first second : List ι) :
    ∀ state, trace step state (first ++ second) =
      trace step state first ++ trace step (final step state first) second := by
  induction first with
  | nil => exact fun _ => rfl
  | cons input rest ih => exact fun state => congrArg (Event.of step state input :: ·) (ih _)

/-! ### Invariants -/

/-- **What every step keeps, every run keeps.** -/
theorem invariant {Inv : σ → Prop} (run : Run step start history stop) (initial : Inv start)
    (preserved : ∀ event : Event σ ι ο, event.Taken step → Inv event.before → Inv event.after) :
    Inv stop := by
  induction run with
  | start => exact initial
  | next _ taken ih => exact preserved _ taken ih

/-- What every step of this run keeps. -/
theorem invariant_along {Inv : σ → Prop} (run : Run step start history stop)
    (initial : Inv start) (preserved : ∀ event ∈ history, event.Taken step → Inv event.before →
      Inv event.after) : Inv stop := by
  induction run with
  | start => exact initial
  | @next history event _ taken ih =>
    have before := ih fun earlier member => preserved earlier (List.mem_append_left _ member)
    exact preserved event (List.mem_append_right _ (List.mem_singleton_self _)) taken before

theorem invariant_before {Inv : σ → Prop} (run : Run step start history stop)
    (initial : Inv start)
    (preserved : ∀ event : Event σ ι ο, event.Taken step → Inv event.before → Inv event.after) :
    ∀ event ∈ history, Inv event.before := by
  intro event member
  obtain ⟨past, rest, rfl⟩ := List.append_of_mem member
  exact run.around.1.invariant initial preserved

/-- **What every step keeps or excuses.** -/
theorem invariant_unless (Inv : σ → Prop) {Excuse : Event σ ι ο → Prop}
    (run : Run step start history stop) (initial : Inv start)
    (preserved : ∀ event ∈ history, event.Taken step → Inv event.before →
      Inv event.after ∨ Excuse event) :
    Inv stop ∨ ∃ event ∈ history, Excuse event := by
  induction run with
  | start => exact Or.inl initial
  | @next history event _ taken ih =>
    have past := ih fun earlier member => preserved earlier (List.mem_append_left _ member)
    rcases past with kept | ⟨excuse, member, excused⟩
    · rcases preserved event (by simp) taken kept with kept | excused
      · exact Or.inl kept
      · exact Or.inr ⟨event, by simp, excused⟩
    · exact Or.inr ⟨excuse, List.mem_append_left _ member, excused⟩

/-- **Since when a property holds**: the step after which it has held ever since. -/
theorem since (Holds : σ → Prop) (run : Run step start history stop) (initial : ¬ Holds start)
    (holds : Holds stop) : ∃ past event rest, history = past ++ event :: rest ∧
      ¬ Holds event.before ∧ ∀ later ∈ event :: rest, Holds later.after := by
  induction run with
  | start => exact absurd holds initial
  | @next history last _ _ ih =>
    by_cases before : Holds last.before
    · obtain ⟨past, event, rest, rfl, first, since⟩ := ih before
      refine ⟨past, event, rest ++ [last], by simp, first, fun later member => ?_⟩
      rw [← List.cons_append] at member
      rcases List.mem_append.mp member with old | new
      · exact since later old
      · rw [List.mem_singleton.mp new]
        exact holds
    · refine ⟨history, last, [], rfl, before, fun later member => ?_⟩
      rw [List.mem_singleton.mp member]
      exact holds

end Run

/-! ### Clients that share a state -/

/-- **A shared state and the state of every client.** -/
structure System (σ κ : Type) where
  shared : σ
  client : Nat → κ

namespace System

variable {κ μ : Type}

/-- The client whose turn it is takes one step. -/
def step (advance : σ → κ → μ → ο × σ × κ) (system : System σ κ) (turn : Nat × μ) :
    ο × System σ κ :=
  let result := advance system.shared (system.client turn.1) turn.2
  (result.1, { shared := result.2.1, client := Function.update system.client turn.1 result.2.2 })

end System

/-- A step of the system is a step of the client whose turn it is; the others stay as they are. -/
theorem System.taken_advance {κ μ : Type} {advance : σ → κ → μ → ο × σ × κ}
    {event : Event (System σ κ) (Nat × μ) ο} (taken : event.Taken (System.step advance)) :
    advance event.before.shared (event.before.client event.input.1) event.input.2 =
      (event.output, event.after.shared, event.after.client event.input.1) ∧
    ∀ other, other ≠ event.input.1 → event.after.client other = event.before.client other := by
  rw [Event.Taken, System.step] at taken
  obtain ⟨output, after⟩ := Prod.mk.inj taken
  rw [← after, ← output]
  refine ⟨?_, fun other different => Function.update_of_ne different _ _⟩
  simp only [Function.update_self]

/-- **The rule for interleavings.** -/
theorem Run.interleaved {κ μ : Type} {advance : σ → κ → μ → ο × σ × κ} {start final : System σ κ}
    {history : List (Event (System σ κ) (Nat × μ) ο)} (Inv : σ → Prop) (Own : Nat → σ → κ → Prop)
    (run : Run (System.step advance) start history final)
    (initial : Inv start.shared ∧ ∀ client, Own client start.shared (start.client client))
    (preserved : ∀ event ∈ history, event.Taken (System.step advance) →
      Inv event.before.shared →
      (∀ client, Own client event.before.shared (event.before.client client)) →
      Inv event.after.shared ∧
        Own event.input.1 event.after.shared (event.after.client event.input.1) ∧
        ∀ client other, Own client event.before.shared other →
          Own client event.after.shared other) :
    Inv final.shared ∧ (∀ client, Own client final.shared (final.client client)) ∧
      ∀ event ∈ history, Inv event.before.shared ∧
        ∀ client, Own client event.before.shared (event.before.client client) := by
  induction run with
  | start => exact ⟨initial.1, initial.2, fun _ => nofun⟩
  | @next history event _ taken ih =>
    obtain ⟨invBefore, ownBefore, past⟩ :=
      ih fun earlier member => preserved earlier (List.mem_append_left _ member)
    obtain ⟨inv, own, others⟩ := preserved event (by simp) taken invBefore ownBefore
    refine ⟨inv, fun client => ?_, fun earlier member => ?_⟩
    · by_cases same : client = event.input.1
      · rw [same]
        exact own
      · rw [(System.taken_advance taken).2 client same]
        exact others _ _ (ownBefore client)
    · rcases List.mem_append.mp member with old | new
      · exact past earlier old
      · rw [List.mem_singleton.mp new]
        exact ⟨invBefore, ownBefore⟩

/-- **The rule for linearization points.** If every step leaves what is seen of the state alone, or
does to it what a serial machine does on an input, then a run does what the serial machine does on
these inputs, in the order of the steps. -/
theorem Run.linearized {τ ι' ο' : Type} {step : τ → ι → ο × τ} {start stop : τ}
    {history : List (Event τ ι ο)} (view : τ → σ) (serial : σ → ι' → ο' × σ)
    (point : Event τ ι ο → Option ι') (run : Run step start history stop)
    (silent : ∀ event ∈ history, point event = none → view event.after = view event.before)
    (acts : ∀ event ∈ history, ∀ input, point event = some input →
      (serial (view event.before) input).2 = view event.after) :
    view stop = Run.final serial (view start) (history.filterMap point) := by
  induction run with
  | start => rfl
  | @next history event _ _ ih =>
    have before := ih (fun earlier member => silent earlier (List.mem_append_left _ member))
      fun earlier member => acts earlier (List.mem_append_left _ member)
    rw [List.filterMap_append, Run.final_append, ← before]
    cases acted : point event with
    | none => simpa [acted, Run.final] using silent event (by simp) acted
    | some input => simpa [acted, Run.final] using (acts event (by simp) input acted).symm

end CloudTwin.Lib
