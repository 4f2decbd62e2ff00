import Mathlib.Data.List.Basic

/-!
# Gathering along chains

Chains of bounded length in a relation, and loops that produce a part for every
item and merge it into their state. The parts that such a loop merged are those of
all its items, in whatever order they came.
-/

namespace AlienConnection.Library

inductive Within {α : Type} (step : α → α → Prop) : Nat → α → α → Prop where
  | here {bound : Nat} {start : α} : Within step bound start start
  | there {bound : Nat} {start next last : α} (first : step start next)
      (rest : Within step bound next last) : Within step (bound + 1) start last

namespace Within

variable {α : Type} {step : α → α → Prop} {start last : α}

theorem zero_iff : Within step 0 start last ↔ start = last := by
  constructor
  · intro reached
    cases reached
    rfl
  · rintro rfl
    exact here

theorem succ_iff {bound : Nat} : Within step (bound + 1) start last ↔
    start = last ∨ ∃ next, step start next ∧ Within step bound next last := by
  constructor
  · intro reached
    cases reached with
    | here => exact Or.inl rfl
    | there first rest => exact Or.inr ⟨_, first, rest⟩
  · rintro (rfl | ⟨next, first, rest⟩)
    · exact here
    · exact there first rest

/-- What holds somewhere along the chains, by their first step. -/
theorem exists_succ_iff {Has : α → Prop} {bound : Nat} :
    (∃ last, Within step (bound + 1) start last ∧ Has last) ↔
      Has start ∨ ∃ next, step start next ∧ ∃ last, Within step bound next last ∧ Has last := by
  constructor
  · rintro ⟨last, reached, has⟩
    rcases succ_iff.mp reached with rfl | ⟨next, first, rest⟩
    · exact Or.inl has
    · exact Or.inr ⟨next, first, last, rest, has⟩
  · rintro (has | ⟨next, first, last, rest, has⟩)
    · exact ⟨start, here, has⟩
    · exact ⟨last, there first rest, has⟩

end Within

/-- A step that produces a part for an item and merges it, in the states where an
invariant holds. Which part an item has does not depend on the state. -/
structure Merging {σ ε γ : Type} (step : σ → ε → Option σ) (part : ε → Option γ)
    (merge : σ → γ → σ) (Holds : σ → Prop) : Prop where
  steps : ∀ state, Holds state → ∀ item, step state item = (part item).map (merge state)
  kept : ∀ state, Holds state → ∀ piece, Holds (merge state piece)

namespace Merging

variable {σ ε γ : Type} {step : σ → ε → Option σ} {part : ε → Option γ} {merge : σ → γ → σ}
  {Holds : σ → Prop}

/-- One round of the loop. -/
theorem cons_iff (merging : Merging step part merge Holds) {item : ε} {rest : List ε}
    {state last : σ} (holds : Holds state) :
    (item :: rest).foldlM step state = some last ↔
      ∃ piece, part item = some piece ∧ rest.foldlM step (merge state piece) = some last := by
  rw [List.foldlM_cons, merging.steps state holds, Option.bind_eq_bind, Option.bind_eq_some_iff]
  simp only [Option.map_eq_some_iff, exists_exists_and_eq_and]

/-- The loop ends normally when every item has its part. -/
theorem exists_iff (merging : Merging step part merge Holds) (items : List ε) {state : σ}
    (holds : Holds state) :
    (∃ last, items.foldlM step state = some last) ↔
      ∀ item ∈ items, ∃ piece, part item = some piece := by
  induction items generalizing state with
  | nil => simp
  | cons item rest ih =>
      simp only [merging.cons_iff holds, List.forall_mem_cons]
      constructor
      · rintro ⟨last, piece, produced, ran⟩
        exact ⟨⟨piece, produced⟩, (ih (merging.kept state holds piece)).mp ⟨last, ran⟩⟩
      · rintro ⟨⟨piece, produced⟩, later⟩
        obtain ⟨last, ran⟩ := (ih (merging.kept state holds piece)).mpr later
        exact ⟨last, piece, produced, ran⟩

theorem holds_last (merging : Merging step part merge Holds) {items : List ε} {state last : σ}
    (holds : Holds state) (ran : items.foldlM step state = some last) : Holds last := by
  induction items generalizing state with
  | nil =>
      cases ran
      exact holds
  | cons item rest ih =>
      obtain ⟨piece, _, ran⟩ := (merging.cons_iff holds).mp ran
      exact ih (merging.kept state holds piece) ran

/-- What the last state has, the first state or a part had. -/
theorem has_last_iff (merging : Merging step part merge Holds) {Has : σ → Prop}
    {Brings : γ → Prop}
    (merged : ∀ state, Holds state → ∀ piece, Has (merge state piece) ↔ Has state ∨ Brings piece)
    {items : List ε} {state last : σ} (holds : Holds state)
    (ran : items.foldlM step state = some last) :
    Has last ↔ Has state ∨ ∃ item ∈ items, ∃ piece, part item = some piece ∧ Brings piece := by
  induction items generalizing state with
  | nil =>
      cases ran
      simp
  | cons item rest ih =>
      obtain ⟨piece, produced, ran⟩ := (merging.cons_iff holds).mp ran
      rw [ih (merging.kept state holds piece) ran, merged state holds, or_assoc]
      simp [produced]

end Merging

end AlienConnection.Library
