import AlienConnection.Library.Machine
import Mathlib.Algebra.BigOperators.Group.List.Basic

/-!
# Reading, changing and writing back

Parties fetch a shared value, change their copy and store the copy, with nothing to stop
others from storing in between. What a store replaces without having seen it is lost. The
changes that a value descends from are known from the order of events alone.
-/

namespace AlienConnection.Library

namespace WriteBack

variable {ρ υ : Type}

/-- A party fetches the value, to change it or only to look at it; the party at a position
stores its copy, and is done. -/
inductive Event (υ : Type) where
  | fetch (change : Option υ)
  | store (position : Nat)
  deriving DecidableEq

structure Shared (ρ υ : Type) where
  value : ρ
  pending : List (Option (υ × ρ)) := []

namespace Shared

variable (apply : υ → ρ → ρ)

def step (shared : Shared ρ υ) : Event υ → Shared ρ υ
  | .fetch change =>
      { shared with
        pending := shared.pending ++ [change.map fun change => (change, shared.value)] }
  | .store position =>
      match shared.pending[position]? with
      | some (some (change, seen)) =>
          ⟨apply change seen, shared.pending.eraseIdx position⟩
      | _ => { shared with pending := shared.pending.eraseIdx position }

def stores (shared : Shared ρ υ) : Event υ → Option υ
  | .fetch _ => none
  | .store position => (shared.pending[position]?).join.map Prod.fst

end Shared

/-! ## Descent -/

def kept : List υ → List Bool → List υ
  | change :: rest, true :: marks => change :: kept rest marks
  | _ :: rest, false :: marks => kept rest marks
  | _, _ => []

def lost : List υ → List Bool → List υ
  | _ :: rest, true :: marks => lost rest marks
  | change :: rest, false :: marks => change :: lost rest marks
  | _, _ => []

/-- All changes that were stored, those marked that the value descends from, and for each
party the marks at the time of its fetch. -/
structure Descent (υ : Type) where
  stored : List υ := []
  marks : List Bool := []
  pending : List (Option (υ × List Bool)) := []

namespace Descent

/-- Storing unmarks what was stored since the fetch. -/
def step (descent : Descent υ) : Event υ → Descent υ
  | .fetch change =>
      { descent with
        pending := descent.pending ++ [change.map fun change => (change, descent.marks)] }
  | .store position =>
      match descent.pending[position]? with
      | some (some (change, seen)) =>
          { stored := descent.stored ++ [change]
            marks :=
              seen ++ List.replicate (descent.stored.length - seen.length) false ++ [true]
            pending := descent.pending.eraseIdx position }
      | _ => { descent with pending := descent.pending.eraseIdx position }

def kept (descent : Descent υ) : List υ := WriteBack.kept descent.stored descent.marks

def lost (descent : Descent υ) : List υ := WriteBack.lost descent.stored descent.marks

end Descent

theorem kept_nil (stored : List υ) : kept stored [] = [] := by
  cases stored with
  | nil => rfl
  | cons change rest => rfl

theorem kept_append_stored {stored : List υ} {marks : List Bool} (more : List υ)
    (bound : marks.length ≤ stored.length) : kept (stored ++ more) marks = kept stored marks := by
  induction stored generalizing marks with
  | nil =>
      rw [List.eq_nil_of_length_eq_zero (Nat.le_zero.mp bound), kept_nil, kept_nil]
  | cons change rest ih =>
      cases marks with
      | nil => rfl
      | cons mark marks =>
          have later := ih (Nat.le_of_succ_le_succ bound)
          cases mark with
          | true => exact congrArg (change :: ·) later
          | false => exact later

theorem kept_append_false (stored : List υ) (marks : List Bool) (count : Nat) :
    kept stored (marks ++ List.replicate count false) = kept stored marks := by
  induction stored generalizing marks count with
  | nil => simp [kept]
  | cons change rest ih =>
      cases marks with
      | nil =>
          cases count with
          | zero => rfl
          | succ count => exact (ih [] count).trans (kept_nil rest)
      | cons mark marks =>
          have later := ih marks count
          cases mark with
          | true => exact congrArg (change :: ·) later
          | false => exact later

theorem kept_concat {stored : List υ} {marks : List Bool} (change : υ)
    (size : marks.length = stored.length) :
    kept (stored ++ [change]) (marks ++ [true]) = kept stored marks ++ [change] := by
  induction stored generalizing marks with
  | nil =>
      rw [List.eq_nil_of_length_eq_zero size]
      rfl
  | cons first rest ih =>
      cases marks with
      | nil => cases size
      | cons mark marks =>
          have later := ih (Nat.succ.inj size)
          cases mark with
          | true => exact congrArg (first :: ·) later
          | false => exact later

/-- A sum over what was stored is one over what is kept and one over what is lost. -/
theorem sum_kept_add_sum_lost {M : Type} [AddCommMonoid M] (size : υ → M) {stored : List υ}
    {marks : List Bool} (full : marks.length = stored.length) :
    ((kept stored marks).map size).sum + ((lost stored marks).map size).sum =
      (stored.map size).sum := by
  induction stored generalizing marks with
  | nil =>
      rw [List.eq_nil_of_length_eq_zero full]
      exact add_zero 0
  | cons change rest ih =>
      cases marks with
      | nil => cases full
      | cons mark marks =>
          have later := ih (Nat.succ.inj full)
          cases mark with
          | true => simp only [kept, lost, List.map_cons, List.sum_cons, add_assoc, later]
          | false => simp only [kept, lost, List.map_cons, List.sum_cons, add_left_comm, later]

/-! ## The value -/

section Value

variable (apply : υ → ρ → ρ) (initial : ρ)

def rebuild (changes : List υ) : ρ :=
  changes.foldl (fun value change => apply change value) initial

theorem rebuild_concat (changes : List υ) (change : υ) :
    rebuild apply initial (changes ++ [change]) = apply change (rebuild apply initial changes) := by
  rw [rebuild, List.foldl_append]
  rfl

/-- The shared value and all copies are what they descend from. -/
structure Follows (shared : Shared ρ υ) (descent : Descent υ) : Prop where
  size : descent.marks.length = descent.stored.length
  value : shared.value = rebuild apply initial descent.kept
  bound : ∀ change seen, some (change, seen) ∈ descent.pending →
    seen.length ≤ descent.stored.length
  pending : shared.pending = descent.pending.map fun job =>
    job.map fun copy => (copy.1, rebuild apply initial (kept descent.stored copy.2))

variable {apply initial} {shared : Shared ρ υ} {descent : Descent υ}

theorem follows_start (value : ρ) : Follows apply value ⟨value, []⟩ {} :=
  ⟨rfl, rfl, fun _ _ none => absurd none List.not_mem_nil, rfl⟩

theorem Follows.fetch (follows : Follows apply initial shared descent) (change : Option υ) :
    Follows apply initial (shared.step apply (.fetch change)) (descent.step (.fetch change)) := by
  refine ⟨follows.size, follows.value, ?_, ?_⟩
  · intro other seen member
    rcases List.mem_append.mp member with before | here
    · exact follows.bound other seen before
    · obtain ⟨_, _, same⟩ := Option.map_eq_some_iff.mp (List.mem_singleton.mp here).symm
      cases same
      exact Nat.le_of_eq follows.size
  · rw [Shared.step, Descent.step, List.map_append, ← follows.pending, follows.value]
    cases change <;> rfl

theorem Follows.store (follows : Follows apply initial shared descent) (position : Nat) :
    Follows apply initial (shared.step apply (.store position))
      (descent.step (.store position)) := by
  have found : shared.pending[position]? = (descent.pending[position]?).map fun job =>
      job.map fun copy => (copy.1, rebuild apply initial (WriteBack.kept descent.stored copy.2)) := by
    rw [follows.pending, List.getElem?_map]
  have erased : shared.pending.eraseIdx position = (descent.pending.eraseIdx position).map
      fun job => job.map fun copy =>
        (copy.1, rebuild apply initial (WriteBack.kept descent.stored copy.2)) := by
    rw [follows.pending, List.eraseIdx_map]
  have boundErased : ∀ change seen, some (change, seen) ∈ descent.pending.eraseIdx position →
      seen.length ≤ descent.stored.length := fun change seen member =>
    follows.bound change seen (List.mem_of_mem_eraseIdx member)
  rw [Shared.step, Descent.step, found]
  cases job : descent.pending[position]? with
  | none => exact ⟨follows.size, follows.value, boundErased, erased⟩
  | some job' =>
      cases job' with
      | none => exact ⟨follows.size, follows.value, boundErased, erased⟩
      | some copy =>
          obtain ⟨change, seen⟩ := copy
          have seenBound := follows.bound change seen (List.mem_of_getElem? job)
          have padded : (seen ++ List.replicate (descent.stored.length - seen.length) false).length =
              descent.stored.length := by
            rw [List.length_append, List.length_replicate]
            omega
          refine ⟨?_, ?_, ?_, ?_⟩
          · simp only [List.length_append, List.length_singleton] at padded ⊢
            rw [padded]
          · simp only [Option.map_some, Descent.kept]
            rw [kept_concat change padded, kept_append_false, rebuild_concat]
          · intro other otherSeen member
            have bound := boundErased other otherSeen member
            simp only [List.length_append]
            omega
          · simp only [Option.map_some]
            rw [erased]
            apply List.map_congr_left
            intro other member
            cases other with
            | none => rfl
            | some copy =>
                simp only [Option.map_some]
                rw [kept_append_stored [change] (boundErased copy.1 copy.2 member)]

theorem Follows.step (follows : Follows apply initial shared descent) (event : Event υ) :
    Follows apply initial (shared.step apply event) (descent.step event) := by
  cases event with
  | fetch change => exact follows.fetch change
  | store position => exact follows.store position

/-- What is stored in a step. -/
theorem Follows.stored (follows : Follows apply initial shared descent) (event : Event υ) :
    (descent.step event).stored = descent.stored ++ (shared.stores event).toList := by
  cases event with
  | fetch change => exact (List.append_nil _).symm
  | store position =>
      rw [Descent.step, Shared.stores, follows.pending, List.getElem?_map]
      cases descent.pending[position]? with
      | none => exact (List.append_nil _).symm
      | some job =>
          cases job with
          | none => exact (List.append_nil _).symm
          | some copy => rfl

end Value

end WriteBack

end AlienConnection.Library
