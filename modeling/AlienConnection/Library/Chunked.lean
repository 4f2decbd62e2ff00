import Mathlib.Data.List.Basic

/-!
# Streams that arrive in pieces

A stream is delivered in pieces, none of them empty. One read takes elements from the
first piece only, however many it asks for. Behind the last piece a stream either ends
or is broken, and reading from a broken stream fails.
-/

namespace AlienConnection.Library

universe u

structure Chunked (α : Type u) where
  chunks : List (List α)
  filled : [] ∉ chunks
  broken : Bool

namespace Chunked

variable {α : Type u}

def contents (stream : Chunked α) : List α := stream.chunks.flatten

def behind (piece : List α) (stream : Chunked α) : Chunked α :=
  match piece with
  | [] => stream
  | first :: rest =>
      { stream with
        chunks := (first :: rest) :: stream.chunks
        filled := by simp [stream.filled] }

/-- A single read of at most some number of elements. It yields nothing if none are asked
for or at the end, and is `none` if the stream is broken. -/
def read (count : Nat) : Chunked α → Option (List α × Chunked α)
  | ⟨[], filled, broken⟩ =>
      if count = 0 ∨ broken = false then some ([], ⟨[], filled, broken⟩) else none
  | ⟨chunk :: rest, filled, broken⟩ =>
      some (chunk.take count,
        behind (chunk.drop count) ⟨rest, fun empty => filled (List.mem_cons_of_mem _ empty), broken⟩)

def reach : List (List α) → Nat → Nat
  | [], _ => 0
  | chunk :: rest, position =>
      if position < chunk.length then chunk.length
      else chunk.length + reach rest (position - chunk.length)

def through (stream : Chunked α) (position : Nat) : Nat := reach stream.chunks position

@[simp]
theorem contents_behind (piece : List α) (stream : Chunked α) :
    (behind piece stream).contents = piece ++ stream.contents := by
  cases piece with
  | nil => rfl
  | cons first rest => rfl

@[simp]
theorem broken_behind (piece : List α) (stream : Chunked α) :
    (behind piece stream).broken = stream.broken := by
  cases piece with
  | nil => rfl
  | cons first rest => rfl

theorem through_behind (piece : List α) (stream : Chunked α) (position : Nat) :
    (behind piece stream).through position =
      if position < piece.length then piece.length
      else piece.length + stream.through (position - piece.length) := by
  cases piece with
  | nil => simp [behind]
  | cons first rest => rfl

/-- A stream without contents has no pieces. -/
theorem chunks_of_contents {stream : Chunked α} (empty : stream.contents = []) :
    stream.chunks = [] := by
  obtain ⟨chunks, filled, broken⟩ := stream
  cases chunks with
  | nil => rfl
  | cons chunk rest =>
      have first : chunk = [] := (List.append_eq_nil_iff.mp empty).1
      rw [first] at filled
      exact absurd List.mem_cons_self filled

theorem read_of_empty {stream : Chunked α} (empty : stream.contents = []) (count : Nat) :
    stream.read count = if count = 0 ∨ stream.broken = false then some ([], stream) else none := by
  have none := chunks_of_contents empty
  obtain ⟨chunks, filled, broken⟩ := stream
  cases none
  rfl

/-- A read of one element takes the next one. -/
theorem read_one {stream : Chunked α} {element : α} {rest : List α}
    (next : stream.contents = element :: rest) :
    ∃ after, stream.read 1 = some ([element], after) ∧ after.contents = rest ∧
      after.broken = stream.broken ∧
      ∀ position, after.through position = stream.through (position + 1) - 1 := by
  obtain ⟨chunks, filled, broken⟩ := stream
  cases chunks with
  | nil => cases next
  | cons chunk chunks =>
      cases chunk with
      | nil => exact absurd List.mem_cons_self filled
      | cons first piece =>
          obtain ⟨rfl, behindFirst⟩ := List.cons.inj next
          refine ⟨_, rfl, ?_, broken_behind _ _, ?_⟩
          · rw [contents_behind]
            exact behindFirst
          · intro position
            rw [through_behind]
            simp only [through, reach, List.drop_succ_cons, List.drop_zero, List.length_cons,
              Nat.add_lt_add_iff_right, Nat.add_sub_add_right]
            split <;> omega

/-- A read takes what is left of the piece that brings the next element, as far as it was
asked for. -/
theorem fst_read {stream : Chunked α} (more : stream.contents ≠ []) (count : Nat) :
    (stream.read count).map Prod.fst =
      some (stream.contents.take (min count (stream.through 0))) := by
  obtain ⟨chunks, filled, broken⟩ := stream
  cases chunks with
  | nil => exact absurd rfl more
  | cons chunk chunks =>
      have positive : 0 < chunk.length := by
        apply List.length_pos_iff.mpr
        rintro rfl
        exact filled List.mem_cons_self
      rw [read, Option.map_some, contents, through, reach, if_pos positive, List.flatten_cons,
        List.take_append_of_le_length (Nat.min_le_right _ _)]
      congr 1
      rw [List.take_eq_take_iff]
      omega

end Chunked

end AlienConnection.Library
