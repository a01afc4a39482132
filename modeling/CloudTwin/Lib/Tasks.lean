/-
**Requests that are several calls.**

A request is served by a sequence of calls on a shared state, and the calls of other requests can come
between any two of them. What a request does next is its task: a call that either leads to another one
or ends the request. A client without a task begins a request with its next turn.

* `Progress` — where a call leads; `Turn` — what a client brings to its turn.
* `advance` — the step of a client, for `System.step`.
* `task_taken` — what a step does; `task_origin` — where the task of a client comes from.
* `tasks_invariant` — what holds of the shared state in every run whose steps are excused by nothing.
-/

import CloudTwin.Lib.Machine

namespace CloudTwin.Lib

variable {σ τ ρ ε ι : Type}

/-- Where a call leads: to the next call of the request, or to its end. -/
inductive Progress (τ ρ : Type) where
  | continues (task : τ)
  | ends (result : ρ)

/-- A call that can fail, and ends the request if it does. -/
def Progress.orEnd {β γ : Type} (result : Except β τ) (fail : β → γ) : Progress τ γ :=
  match result with
  | .ok task => .continues task
  | .error error => .ends (fail error)

/-- The call that is made, and the request that the client begins if it has none under way. -/
structure Turn (ε ι : Type) where
  call : ε
  request : ι

/-- **The step of a client.** -/
def advance (first : ι → τ) (run : ε → τ → σ → Progress τ ρ × σ) (shared : σ) (client : Option τ)
    (turn : Turn ε ι) : Option ρ × σ × Option τ :=
  match run turn.call (client.getD (first turn.request)) shared with
  | (.continues next, after) => (none, after, some next)
  | (.ends result, after) => (some result, after, none)

section Steps

variable {first : ι → τ} {run : ε → τ → σ → Progress τ ρ × σ}
  {event : Event (System σ (Option τ)) (Nat × Turn ε ι) (Option ρ)}

/-- The call that a step makes. -/
def taskOf (first : ι → τ) (event : Event (System σ (Option τ)) (Nat × Turn ε ι) (Option ρ)) : τ :=
  (event.before.client event.input.1).getD (first event.input.2.request)

/-- **What a step does.** -/
theorem task_taken (taken : event.Taken (System.step (advance first run))) :
    event.after.shared = (run event.input.2.call (taskOf first event) event.before.shared).2 ∧
    match (run event.input.2.call (taskOf first event) event.before.shared).1 with
    | .continues next => event.output = none ∧ event.after.client event.input.1 = some next
    | .ends result => event.output = some result ∧ event.after.client event.input.1 = none := by
  have step := (System.taken_advance taken).1
  unfold advance at step
  rw [← taskOf] at step
  split at step
  · rename_i next after ran
    rw [ran]
    obtain ⟨output, step⟩ := Prod.mk.inj step
    obtain ⟨shared, client⟩ := Prod.mk.inj step
    exact ⟨shared.symm, output.symm, client.symm⟩
  · rename_i result after ran
    rw [ran]
    obtain ⟨output, step⟩ := Prod.mk.inj step
    obtain ⟨shared, client⟩ := Prod.mk.inj step
    exact ⟨shared.symm, output.symm, client.symm⟩

/-- **Where the task of a client comes from**: it had it, or its step led to it. -/
theorem task_origin (taken : event.Taken (System.step (advance first run))) {client : Nat} {next : τ}
    (holds : event.after.client client = some next) :
    (client ≠ event.input.1 ∧ event.before.client client = some next) ∨
    (client = event.input.1 ∧
      (run event.input.2.call (taskOf first event) event.before.shared).1 = .continues next) := by
  by_cases same : client = event.input.1
  · subst same
    obtain ⟨_, ran⟩ := task_taken taken
    split at ran
    · rename_i goes
      rw [ran.2] at holds
      cases holds
      exact Or.inr ⟨rfl, goes⟩
    · rw [ran.2] at holds
      cases holds
  · rw [(System.taken_advance taken).2 client same] at holds
    exact Or.inl ⟨same, holds⟩

/-- **The rule for requests in several calls.** What every call keeps of the shared state, provided
that the tasks under way are sound, holds throughout a run; a sound task leads to a sound one, and no
step of another client makes it unsound. -/
theorem tasks_invariant {start final : System σ (Option τ)}
    {history : List (Event (System σ (Option τ)) (Nat × Turn ε ι) (Option ρ))}
    (Inv : σ → Prop) (Sound : σ → τ → Prop)
    (ran : Run (System.step (advance first run)) start history final)
    (initial : Inv start.shared ∧ ∀ client task, start.client client = some task →
      Sound start.shared task)
    (begins : ∀ event ∈ history, event.before.client event.input.1 = none →
      Sound event.before.shared (first event.input.2.request))
    (calls : ∀ event ∈ history, event.Taken (System.step (advance first run)) →
      Inv event.before.shared → Sound event.before.shared (taskOf first event) →
      Inv event.after.shared ∧
        (∀ next, (run event.input.2.call (taskOf first event) event.before.shared).1 =
          .continues next → Sound event.after.shared next) ∧
        ∀ client other, client ≠ event.input.1 → event.before.client client = some other →
          Sound event.before.shared other → Sound event.after.shared other) :
    (Inv final.shared ∧ ∀ client task, final.client client = some task → Sound final.shared task) ∧
      ∀ event ∈ history, Inv event.before.shared ∧ Sound event.before.shared (taskOf first event) ∧
        ∀ client task, event.before.client client = some task →
          Sound event.before.shared task := by
  induction ran with
  | start => exact ⟨initial, fun _ => nofun⟩
  | @next history event _ taken ih =>
    obtain ⟨⟨inv, sound⟩, past⟩ := ih (fun earlier member => begins earlier (by simp [member]))
      fun earlier member => calls earlier (by simp [member])
    have own : Sound event.before.shared (taskOf first event) := by
      unfold taskOf
      cases held : event.before.client event.input.1 with
      | none => exact begins event (by simp) held
      | some task => exact sound _ task held
    obtain ⟨invAfter, leads, others⟩ := calls event (by simp) taken inv own
    refine ⟨⟨invAfter, fun client task holds => ?_⟩, fun earlier member => ?_⟩
    · rcases task_origin taken holds with ⟨away, before⟩ | ⟨rfl, goes⟩
      · exact others client task away before (sound client task before)
      · exact leads task goes
    · rcases List.mem_append.mp member with old | new
      · exact past earlier old
      · rw [List.mem_singleton.mp new]
        exact ⟨inv, own, sound⟩

end Steps

end CloudTwin.Lib
