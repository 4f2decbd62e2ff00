import AlienConnection.Library.Machine

/-!
# Machines that settle

Some events of a machine are its own: they go on with work that it has started. A state
settles right if every run of such events that leaves no work behind ends in a right
state, so that a wrong state can only come from an event of the outside.
-/

namespace AlienConnection.Library.Settling

variable {σ ε : Type}

/-- Wherever the machine comes to rest on its own, it is right. -/
def Settles (step : σ → ε → σ) (Own : ε → Prop) (Rests Right : σ → Prop) (state : σ) : Prop :=
  ∀ events, (∀ event ∈ events, Own event) → Rests (Machine.run step state events) →
    Right (Machine.run step state events)

variable {step : σ → ε → σ} {Own : ε → Prop} {Rests Right : σ → Prop}

theorem Settles.right {state : σ} (settles : Settles step Own Rests Right state)
    (rests : Rests state) : Right state := by
  apply settles [] ?_ rests
  intro event member
  cases member

/-- Settling right is kept by the machine's own events. -/
theorem Settles.next {state : σ} (settles : Settles step Own Rests Right state) {event : ε}
    (own : Own event) : Settles step Own Rests Right (step state event) := by
  intro events owns
  apply settles (event :: events)
  rw [List.forall_mem_cons]
  exact ⟨own, owns⟩

/-- A property that the machine's own events keep and that makes a state at rest right
makes a state settle right. -/
theorem settles_of_kept {Keeps : σ → Prop}
    (kept : ∀ state event, Keeps state → Own event → Keeps (step state event))
    (right : ∀ state, Keeps state → Rests state → Right state) {state : σ}
    (start : Keeps state) : Settles step Own Rests Right state := by
  intro events owns
  induction events generalizing state with
  | nil => exact right state start
  | cons event events ih =>
      obtain ⟨own, owns⟩ := List.forall_mem_cons.mp owns
      exact ih (kept state event start own) owns

end AlienConnection.Library.Settling
