import Mathlib.Data.List.Basic

/-!
# Streams that are polled

A stream arrives in pieces, none of them empty, and may end behind the last one. Whoever
polls it gets elements of the first piece only, and has to wait if nothing has arrived and
the stream has not ended. A buffer that is filled by polling holds the same elements
however they were cut into pieces.
-/

namespace AlienConnection.Library

universe u

structure Polled (α : Type u) where
  pieces : List (List α)
  filled : [] ∉ pieces
  ended : Bool

/-- How an attempt to fill a buffer comes out: it is full, or has to wait, or the stream
has ended before any element of it or within it. -/
inductive Filling where
  | full
  | waiting
  | ended
  | broken
  deriving DecidableEq, Repr

namespace Polled

variable {α : Type u}

def empty : Polled α := ⟨[], List.not_mem_nil, false⟩

def contents (stream : Polled α) : List α := stream.pieces.flatten

def arrive (stream : Polled α) (piece : List α) : Polled α :=
  match piece with
  | [] => stream
  | first :: rest =>
      { stream with
        pieces := stream.pieces ++ [first :: rest]
        filled := by simp [stream.filled] }

def close (stream : Polled α) : Polled α := { stream with ended := true }

theorem filled_tail {piece : List α} {rest : List (List α)} (filled : [] ∉ piece :: rest) :
    [] ∉ rest := fun empty => filled (List.mem_cons_of_mem _ empty)

/-- A single read of at most some number of elements. It is `none` if nothing has arrived
yet, and yields nothing at the end. -/
def read (count : Nat) : Polled α → Option (List α × Polled α)
  | ⟨[], filled, ended⟩ => if ended then some ([], ⟨[], filled, ended⟩) else none
  | ⟨piece :: rest, filled, ended⟩ =>
      have later : [] ∉ rest := filled_tail filled
      some (piece.take count,
        match piece.drop count with
        | [] => ⟨rest, later, ended⟩
        | first :: others =>
            ⟨(first :: others) :: rest, fun empty => (List.mem_cons.mp empty).elim
              (fun same => List.cons_ne_nil first others same.symm) later, ended⟩)

def fillFrom (count : Nat) : List α → List (List α) → List α × List (List α)
  | buffer, [] => (buffer, [])
  | buffer, piece :: rest =>
      if count ≤ buffer.length then (buffer, piece :: rest)
      else if piece.length ≤ count - buffer.length then fillFrom count (buffer ++ piece) rest
      else (buffer ++ piece.take (count - buffer.length),
        piece.drop (count - buffer.length) :: rest)

theorem fillFrom_eq (count : Nat) (buffer : List α) (pieces : List (List α)) :
    (fillFrom count buffer pieces).1 =
        buffer ++ pieces.flatten.take (count - buffer.length) ∧
      (fillFrom count buffer pieces).2.flatten =
        pieces.flatten.drop (count - buffer.length) := by
  induction pieces generalizing buffer with
  | nil => simp [fillFrom]
  | cons piece rest ih =>
      rw [fillFrom]
      split
      · rename_i enough
        simp [Nat.sub_eq_zero_of_le enough]
      · split
        · rename_i fits
          obtain ⟨bufferEq, restEq⟩ := ih (buffer ++ piece)
          have left : count - (buffer ++ piece).length = count - buffer.length - piece.length := by
            rw [List.length_append]
            omega
          rw [bufferEq, restEq, left, List.flatten_cons, List.take_append, List.drop_append,
            List.take_of_length_le fits, List.drop_of_length_le fits, List.append_assoc]
          exact ⟨rfl, rfl⟩
        · rename_i longer
          have ceased : count - buffer.length - piece.length = 0 := by omega
          rw [List.flatten_cons, List.take_append, List.drop_append, ceased]
          simp

theorem filled_fillFrom {count : Nat} {buffer : List α} {pieces : List (List α)}
    (filled : [] ∉ pieces) : [] ∉ (fillFrom count buffer pieces).2 := by
  induction pieces generalizing buffer with
  | nil => exact filled
  | cons piece rest ih =>
      rw [fillFrom]
      split
      · exact filled
      · split
        · exact ih (fun empty => filled (List.mem_cons_of_mem _ empty))
        · rename_i longer
          intro empty
          rcases List.mem_cons.mp empty with none | later
          · have := List.drop_eq_nil_iff.mp none.symm
            omega
          · exact filled (List.mem_cons_of_mem _ later)

def pollExact (count : Nat) (buffer : List α) (stream : Polled α) :
    Filling × List α × Polled α :=
  let filling := fillFrom count buffer stream.pieces
  (if count ≤ filling.1.length then .full
    else if stream.ended = false then .waiting
    else if filling.1.isEmpty then .ended
    else .broken,
    filling.1, ⟨filling.2, filled_fillFrom stream.filled, stream.ended⟩)

@[simp]
theorem contents_arrive (stream : Polled α) (piece : List α) :
    (stream.arrive piece).contents = stream.contents ++ piece := by
  cases piece with
  | nil => exact (List.append_nil _).symm
  | cons first rest => simp [arrive, contents]

@[simp]
theorem ended_arrive (stream : Polled α) (piece : List α) :
    (stream.arrive piece).ended = stream.ended := by
  cases piece with
  | nil => rfl
  | cons first rest => rfl

/-- A read takes elements from the front, and none only at the end. -/
theorem read_spec {count : Nat} (room : 0 < count) {stream after : Polled α} {data : List α}
    (read : stream.read count = some (data, after)) :
    data ++ after.contents = stream.contents ∧ data.length ≤ count ∧
      after.ended = stream.ended ∧ (data = [] → stream.contents = [] ∧ stream.ended = true) := by
  obtain ⟨pieces, filled, ended⟩ := stream
  cases pieces with
  | nil =>
      rw [Polled.read] at read
      split at read
      · cases read
        exact ⟨rfl, Nat.zero_le _, rfl, fun _ => ⟨rfl, ‹_›⟩⟩
      · cases read
  | cons piece rest =>
      have nonempty : piece ≠ [] := fun empty => filled (empty ▸ List.mem_cons_self)
      rw [Polled.read] at read
      cases read
      refine ⟨?_, List.length_take_le _ _, ?_, ?_⟩
      · split
        · rename_i cut
          change piece.take count ++ rest.flatten = piece ++ rest.flatten
          rw [List.take_of_length_le (List.drop_eq_nil_iff.mp cut)]
        · rename_i first others cut
          change piece.take count ++ ((first :: others) ++ rest.flatten) = piece ++ rest.flatten
          rw [← cut, ← List.append_assoc, List.take_append_drop]
      · split <;> rfl
      · intro none
        rcases List.take_eq_nil_iff.mp none with none | none
        · omega
        · exact absurd none nonempty

/-- What an attempt to fill a buffer does: it neither drops nor changes elements, a full
buffer has as many elements as asked for, and one that is not full has got all there is. -/
structure Fills (count : Nat) (buffer : List α) (stream : Polled α)
    (result : Filling × List α × Polled α) : Prop where
  conserves : result.2.1 ++ result.2.2.contents = buffer ++ stream.contents
  full : result.1 = .full → result.2.1.length = count
  short : result.1 ≠ .full → result.2.2.contents = [] ∧ result.2.1.length < count
  ended : result.1 = .ended → stream.ended = true ∧ result.2.1 = []
  broken : result.1 = .broken → stream.ended = true ∧ result.2.1 ≠ []
  keeps : result.2.2.ended = stream.ended

theorem pollExact_fills {count : Nat} {buffer : List α} (room : buffer.length ≤ count)
    (stream : Polled α) : Fills count buffer stream (pollExact count buffer stream) := by
  obtain ⟨bufferEq, restEq⟩ := fillFrom_eq count buffer stream.pieces
  have length := congrArg List.length bufferEq
  rw [List.length_append, List.length_take] at length
  have conserves : (fillFrom count buffer stream.pieces).1 ++
      (fillFrom count buffer stream.pieces).2.flatten = buffer ++ stream.pieces.flatten := by
    rw [bufferEq, restEq, List.append_assoc, List.take_append_drop]
  unfold pollExact
  by_cases enough : count ≤ (fillFrom count buffer stream.pieces).1.length
  · simp only [if_pos enough]
    refine ⟨conserves, fun _ => ?_, fun short => absurd rfl short, ?_, ?_, rfl⟩
    · dsimp only
      omega
    all_goals intro other; cases other
  · have short : (fillFrom count buffer stream.pieces).2.flatten = [] ∧
        (fillFrom count buffer stream.pieces).1.length < count := by
      refine ⟨?_, Nat.lt_of_not_le enough⟩
      rw [restEq, List.drop_eq_nil_iff]
      omega
    simp only [if_neg enough]
    by_cases going : stream.ended = false
    · simp only [if_pos going]
      refine ⟨conserves, ?_, fun _ => short, ?_, ?_, rfl⟩
      all_goals intro other; cases other
    · have ceased : stream.ended = true := by simpa using going
      simp only [if_neg going]
      split
      · rename_i none
        refine ⟨conserves, ?_, fun _ => short, fun _ => ⟨ceased, List.isEmpty_iff.mp none⟩, ?_, rfl⟩
        all_goals intro other; cases other
      · rename_i some
        refine ⟨conserves, ?_, fun _ => short, ?_,
          fun _ => ⟨ceased, fun none => some (List.isEmpty_iff.mpr none)⟩, rfl⟩
        all_goals intro other; cases other

end Polled

/-! ## Buffers that are drained -/

inductive Draining where
  | done
  | waiting
  | refused
  deriving DecidableEq, Repr

/-- Write out what stands behind a position of a buffer of some length. Each write takes at
most as much as it is granted, and one that takes nothing ends the attempt; so does the end
of the grants, after which the writer has to wait. -/
def drain (length : Nat) : Nat → List Nat → Draining × Nat
  | position, [] => if length ≤ position then (.done, position) else (.waiting, position)
  | position, grant :: grants =>
      if length ≤ position then (.done, position)
      else if grant = 0 then (.refused, position)
      else drain length (position + min grant (length - position)) grants

/-- The position never moves back or beyond the end, and the attempt is done exactly at the
end. -/
theorem drain_spec {length position : Nat} (inside : position ≤ length) (grants : List Nat) :
    position ≤ (drain length position grants).2 ∧ (drain length position grants).2 ≤ length ∧
      ((drain length position grants).1 = .done ↔
        (drain length position grants).2 = length) := by
  induction grants generalizing position with
  | nil =>
      rw [drain]
      split
      · rename_i ceased
        exact ⟨Nat.le_refl _, inside, fun _ => Nat.le_antisymm inside ceased, fun _ => rfl⟩
      · rename_i before
        refine ⟨Nat.le_refl _, inside, fun done => (by cases done), ?_⟩
        intro atEnd
        exact absurd (Nat.le_of_eq atEnd.symm) before
  | cons grant grants ih =>
      rw [drain]
      split
      · rename_i ceased
        exact ⟨Nat.le_refl _, inside, fun _ => Nat.le_antisymm inside ceased, fun _ => rfl⟩
      · rename_i before
        split
        · refine ⟨Nat.le_refl _, inside, fun done => (by cases done), ?_⟩
          intro atEnd
          exact absurd (Nat.le_of_eq atEnd.symm) before
        · have next : position + min grant (length - position) ≤ length := by omega
          obtain ⟨forward, bounded, done⟩ := ih next
          exact ⟨by omega, bounded, done⟩

end AlienConnection.Library
