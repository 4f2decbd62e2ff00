import Mathlib.Data.List.Basic
import Mathlib.Data.List.Forall2

/-!
# Runs of a deterministic event machine

A machine is a total step function on a state type. A run is the left fold of
the step function over a finite list of events, so every interleaving is one
list. The rules below turn a one-step fact into a fact about all runs.
-/

namespace AlienConnection.Library.Machine

variable {σ ε : Type}

def run (step : σ → ε → σ) (initial : σ) (events : List ε) : σ :=
  events.foldl step initial

theorem run_append (step : σ → ε → σ) (initial : σ) (first second : List ε) :
    run step initial (first ++ second) = run step (run step initial first) second :=
  List.foldl_append

theorem run_concat (step : σ → ε → σ) (initial : σ) (events : List ε) (event : ε) :
    run step initial (events ++ [event]) = step (run step initial events) event := by
  rw [run_append]
  rfl

/-- A property kept by every step holds in the last state of every run. -/
theorem run_invariant {step : σ → ε → σ} {Holds : σ → Prop}
    (kept : ∀ state event, Holds state → Holds (step state event))
    {initial : σ} (start : Holds initial) (events : List ε) :
    Holds (run step initial events) := by
  induction events generalizing initial with
  | nil => exact start
  | cons event rest ih => exact ih (kept initial event start)

/-- Along a run, every event happens in a state that satisfies a condition on both. -/
def Along (step : σ → ε → σ) (Holds : σ → ε → Prop) (initial : σ) (events : List ε) : Prop :=
  ∀ first event second, events = first ++ event :: second → Holds (run step initial first) event

theorem along_nil (step : σ → ε → σ) (Holds : σ → ε → Prop) (initial : σ) :
    Along step Holds initial [] := by
  intro first event second split
  cases first <;> cases split

theorem along_cons {step : σ → ε → σ} {Holds : σ → ε → Prop} {initial : σ} {event : ε}
    {events : List ε} :
    Along step Holds initial (event :: events) ↔
      Holds initial event ∧ Along step Holds (step initial event) events := by
  constructor
  · intro along
    refine ⟨along [] event events rfl, ?_⟩
    intro first other second split
    exact along (event :: first) other second (by rw [split, List.cons_append])
  · rintro ⟨here, later⟩ first other second split
    cases first with
    | nil =>
        cases split
        exact here
    | cons head first =>
        cases split
        exact later first other second rfl

instance decidableAlong (step : σ → ε → σ) (Holds : σ → ε → Prop)
    [∀ state event, Decidable (Holds state event)] :
    (initial : σ) → (events : List ε) → Decidable (Along step Holds initial events)
  | initial, [] => .isTrue (along_nil step Holds initial)
  | initial, event :: events =>
      have := decidableAlong step Holds (step initial event) events
      decidable_of_iff _ along_cons.symm

/-- A property kept by every step that satisfies a condition holds after every part of
a run along which the condition holds. -/
theorem along_invariant {step : σ → ε → σ} {Holds : σ → ε → Prop} (Keeps : σ → Prop)
    (kept : ∀ state event, Keeps state → Holds state event → Keeps (step state event))
    {initial : σ} (start : Keeps initial) {events : List ε}
    (along : Along step Holds initial events) {first second : List ε}
    (split : events = first ++ second) : Keeps (run step initial first) := by
  subst split
  induction first generalizing initial with
  | nil => exact start
  | cons event first ih =>
      obtain ⟨here, later⟩ := along_cons.mp along
      exact ih (kept initial event start here) later

/-- Two conditions that agree in every state that can be reached hold along the same runs. -/
theorem along_congr {step : σ → ε → σ} {First Second : σ → ε → Prop} {Keeps : σ → Prop}
    (kept : ∀ state event, Keeps state → Keeps (step state event))
    (same : ∀ state event, Keeps state → (First state event ↔ Second state event))
    {initial : σ} (start : Keeps initial) (events : List ε) :
    Along step First initial events ↔ Along step Second initial events := by
  have reached := fun first : List ε => run_invariant kept start first
  constructor
  · intro along first event second split
    exact (same _ event (reached first)).mp (along first event second split)
  · intro along first event second split
    exact (same _ event (reached first)).mpr (along first event second split)

/-- If a condition says exactly when a step keeps a property, the property holds throughout
a run exactly if the condition holds along it. -/
theorem throughout_iff_along {step : σ → ε → σ} {Holds : σ → ε → Prop} {Keeps : σ → Prop}
    (step_iff : ∀ state event, Keeps state → (Keeps (step state event) ↔ Holds state event))
    {initial : σ} (start : Keeps initial) (events : List ε) :
    (∀ first second, events = first ++ second → Keeps (run step initial first)) ↔
      Along step Holds initial events := by
  constructor
  · intro throughout first event second split
    have before := throughout first (event :: second) split
    have after := throughout (first ++ [event]) second (by rw [split, List.append_assoc]; rfl)
    rw [run_concat] at after
    exact (step_iff _ event before).mp after
  · intro along first second split
    exact along_invariant Keeps (fun state event keeps => (step_iff state event keeps).mpr) start
      along split

/-- A property kept by every step of a machine that may fail holds in the last state of
every run that does not. -/
theorem foldlM_invariant {step : σ → ε → Option σ} {Holds : σ → Prop} {events : List ε}
    (kept : ∀ state next, ∀ event ∈ events, Holds state → step state event = some next →
      Holds next)
    {initial last : σ} (start : Holds initial) (ran : events.foldlM step initial = some last) :
    Holds last := by
  induction events generalizing initial with
  | nil =>
      cases ran
      exact start
  | cons event rest ih =>
      rw [List.foldlM_cons, Option.bind_eq_bind, Option.bind_eq_some_iff] at ran
      obtain ⟨next, stepped, ran⟩ := ran
      refine ih ?_ (kept initial next event List.mem_cons_self start stepped) ran
      intro state next event member
      exact kept state next event (List.mem_cons_of_mem _ member)

/-- A function that may fail succeeds on a list if it does so on every item. -/
theorem mapM_eq_ok_iff {α β : Type} {f : α → Except String β} {items : List α}
    {results : List β} :
    items.mapM f = .ok results ↔ List.Forall₂ (fun item result => f item = .ok result) items
      results := by
  induction items generalizing results with
  | nil =>
      rw [List.forall₂_nil_left_iff]
      constructor
      · intro done
        cases done
        rfl
      · rintro rfl
        rfl
  | cons item rest ih =>
      rw [List.mapM_cons, List.forall₂_cons_left_iff]
      cases here : f item with
      | error message =>
          constructor
          · intro done
            cases done
          · rintro ⟨result, others, done, _⟩
            cases done
      | ok result =>
          cases later : rest.mapM f with
          | error message =>
              constructor
              · intro done
                cases done
              · rintro ⟨_, others, _, done, _⟩
                rw [ih.mpr done] at later
                cases later
          | ok others =>
              constructor
              · intro done
                cases done
                exact ⟨result, others, rfl, ih.mp later, rfl⟩
              · rintro ⟨other, more, same, done, rfl⟩
                rw [ih.mpr done] at later
                cases same
                cases later
                rfl

theorem exists_of_mem_mapM {α β : Type} {f : α → Except String β} {items : List α}
    {results : List β} (done : items.mapM f = .ok results) {result : β}
    (listed : result ∈ results) : ∃ item ∈ items, f item = .ok result := by
  have pairs := mapM_eq_ok_iff.mp done
  clear done
  induction pairs with
  | nil => cases listed
  | cons here _ ih =>
      rcases List.mem_cons.mp listed with same | later
      · rw [same]
        exact ⟨_, List.mem_cons_self, here⟩
      · obtain ⟨item, inside, made⟩ := ih later
        exact ⟨item, List.mem_cons_of_mem _ inside, made⟩

theorem ok_of_mem_mapM {α β : Type} {f : α → Except String β} {items : List α}
    {results : List β} (done : items.mapM f = .ok results) {item : α} (listed : item ∈ items) :
    ∃ result, f item = .ok result := by
  have pairs := mapM_eq_ok_iff.mp done
  clear done
  induction pairs with
  | nil => cases listed
  | cons here _ ih =>
      rcases List.mem_cons.mp listed with same | later
      · rw [same]
        exact ⟨_, here⟩
      · exact ih later

theorem mem_mapM {α β : Type} {f : α → Except String β} {items : List α} {results : List β}
    (done : items.mapM f = .ok results) {item : α} (listed : item ∈ items) {result : β}
    (made : f item = .ok result) : result ∈ results := by
  have pairs := mapM_eq_ok_iff.mp done
  clear done
  induction pairs with
  | nil => cases listed
  | cons here _ ih =>
      rcases List.mem_cons.mp listed with same | later
      · rw [← same, made] at here
        cases here
        exact List.mem_cons_self
      · exact List.mem_cons_of_mem _ (ih later)

end AlienConnection.Library.Machine
