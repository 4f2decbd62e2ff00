import AlienConnection.Library.Bytes
import AlienConnection.Library.Chunked

/-!
# The local DNS worker

A connection of the local socket brings the length of a query in two bytes and then the
query. The worker reads the length, allocates an array of zeros and fills it with a
single read, passes the array to the resolver, and writes the response back behind its
length. A read returns what one piece of the stream holds, so that the query is right
when the rest of it would have been zeros anyway.
-/

namespace AlienConnection.Bg

open Library

/-- The resolver of a worker and what it takes from the DNS library. An exception of the
resolver is `none`: its kind only decides what is logged. -/
structure LocalDnsWorker where
  resolver : Bytes → Option Bytes
  /-- `prepareDnsResponse` of the parsed query with `SERVFAIL` on the wire, or `none` if the
  query cannot be parsed. -/
  servfail : Bytes → Option Bytes

namespace LocalDnsWorker

inductive Outcome where
  | dropped
  | answered (query written : Bytes)
  deriving DecidableEq

/-- Two single bytes; `none` is an `IOException`, at the end of the stream as well. -/
def readUnsignedShort (input : Chunked UInt8) : Option (Nat × Chunked UInt8) :=
  match input.read 1 with
  | some ([high], rest) =>
      match rest.read 1 with
      | some ([low], rest) => some (Bytes.ofBigEndian [high, low], rest)
      | _ => none
  | _ => none

/-- `ByteArray(input.readUnsignedShort()).also { input.read(it) }`. -/
def readQuery (input : Chunked UInt8) : Option Bytes :=
  match readUnsignedShort input with
  | none => none
  | some (size, rest) =>
      match (rest.read size).map Prod.fst with
      | none => none
      | some filled => some (filled ++ List.replicate (size - filled.length) 0)

def respond (worker : LocalDnsWorker) (query : Bytes) : Bytes :=
  match worker.resolver query with
  | some response => response
  | none => (worker.servfail query).getD []

def writeShort (value : Nat) : Bytes := Bytes.bigEndian 2 value

def accept (worker : LocalDnsWorker) (input : Chunked UInt8) : Outcome :=
  match readQuery input with
  | none => .dropped
  | some query =>
      let response := worker.respond query
      .answered query (writeShort response.length ++ response)

/-! ## What a connection is for -/

def frame (message : Bytes) : Bytes := Bytes.bigEndian 2 message.length ++ message

def Framed (written message : Bytes) : Prop :=
  ∃ length, written = length ++ message ∧ length.length = 2 ∧
    Bytes.ofBigEndian length = message.length

/-- A whole query is resolved as it is and its response sent back; a connection that ends
before that is dropped. -/
def Serves (worker : LocalDnsWorker) (query : Bytes) (input : Chunked UInt8) : Prop :=
  (input.contents = frame query →
    ∃ written, worker.accept input = .answered query written ∧
      Framed written (worker.respond query)) ∧
  (input.contents ≠ frame query → worker.accept input = .dropped)

/-- The connection ends in the length of the query, or breaks right behind it, or it brings
the query, and zeros from where the piece with the first byte of the query ends; and then
the response has a length of two bytes. -/
def Suffices (worker : LocalDnsWorker) (query : Bytes) (input : Chunked UInt8) : Prop :=
  input.contents.length < 2 ∨
    (input.contents.length = 2 ∧ query ≠ [] ∧ input.broken = true) ∨
    (input.contents = frame query ∧ (∀ byte ∈ query.drop (input.through 2 - 2), byte = 0) ∧
      (worker.respond query).length < 65536)

/-! ## Reading -/

theorem readUnsignedShort_of_short {input : Chunked UInt8} (short : input.contents.length < 2) :
    readUnsignedShort input = none := by
  have ended (stream : Chunked UInt8) (empty : stream.contents = []) (byte : UInt8)
      (rest : Chunked UInt8) : stream.read 1 ≠ some ([byte], rest) := by
    rw [Chunked.read_of_empty empty]
    split <;> simp
  rw [readUnsignedShort]
  split
  next high rest first =>
    have last : rest.contents = [] := by
      cases contents : input.contents with
      | nil => exact absurd first (ended _ contents _ _)
      | cons byte behind =>
          rw [contents, List.length_cons] at short
          obtain ⟨after, taken, left, -⟩ := Chunked.read_one contents
          rw [first, Option.some.injEq, Prod.mk.injEq] at taken
          rw [taken.2, left]
          exact List.eq_nil_of_length_eq_zero (by omega)
    split
    next low final second => exact absurd second (ended _ last _ _)
    next => rfl
  next => rfl

theorem bigEndian_two (number : Nat) :
    Bytes.bigEndian 2 number = [UInt8.ofNat (number / 256), UInt8.ofNat number] := by
  simp [Bytes.bigEndian]

theorem readUnsignedShort_eq {input : Chunked UInt8} {size : Nat} {body : Bytes}
    (small : size < 65536) (contents : input.contents = Bytes.bigEndian 2 size ++ body) :
    ∃ rest, readUnsignedShort input = some (size, rest) ∧ rest.contents = body ∧
      rest.broken = input.broken ∧ rest.through 0 = input.through 2 - 2 := by
  rw [bigEndian_two] at contents
  obtain ⟨first, highRead, left, firstBroken, firstThrough⟩ := Chunked.read_one contents
  obtain ⟨second, lowRead, body, secondBroken, secondThrough⟩ := Chunked.read_one left
  refine ⟨second, ?_, body, secondBroken.trans firstBroken, ?_⟩
  · rw [readUnsignedShort, highRead]
    dsimp only
    rw [lowRead]
    dsimp only
    rw [← bigEndian_two, Bytes.ofBigEndian_bigEndian small]
  · rw [secondThrough, firstThrough, Nat.sub_sub]

/-- A connection that brings the length and the start of a query. -/
theorem readQuery_eq {input : Chunked UInt8} {query body : Bytes} (size : query.length ≤ 65535)
    (start : body <+: query)
    (contents : input.contents = Bytes.bigEndian 2 query.length ++ body) :
    readQuery input =
      if body = [] ∧ query ≠ [] ∧ input.broken = true then none
      else
        let filled := body.take (input.through 2 - 2)
        some (filled ++ List.replicate (query.length - filled.length) 0) := by
  obtain ⟨rest, header, left, broken, through⟩ :=
    readUnsignedShort_eq (Nat.lt_succ_of_le size) contents
  rw [readQuery, header]
  dsimp only
  by_cases empty : body = []
  · rw [empty] at left
    rw [Chunked.read_of_empty left, broken]
    by_cases unused : query = []
    · simp [empty, unused]
    · cases input.broken with
      | false => simp [empty]
      | true => simp [empty, unused]
  · have more : rest.contents ≠ [] := by
      rw [left]
      exact empty
    rw [if_neg (fun failed => empty failed.1), Chunked.fst_read more, left, through]
    have sameStart : body.take (min query.length (input.through 2 - 2)) =
        body.take (input.through 2 - 2) := by
      have bound := start.length_le
      rw [List.take_eq_take_iff]
      omega
    rw [sameStart]

/-- Zeros behind the start of a query are the query when the rest of it is. -/
theorem padded_eq_iff (query : Bytes) (place : Nat) :
    query.take place ++ List.replicate (query.length - (query.take place).length) 0 = query ↔
      ∀ byte ∈ query.drop place, byte = 0 := by
  have size : query.length - (query.take place).length = (query.drop place).length := by
    rw [List.length_take, List.length_drop]
    omega
  rw [size]
  constructor
  · intro same
    have tails := same.trans (List.take_append_drop place query).symm
    have zeros := List.append_cancel_left tails
    intro byte member
    rw [← zeros] at member
    exact List.eq_of_mem_replicate member
  · intro zeros
    rw [← List.eq_replicate_of_mem zeros, List.take_append_drop]

theorem framed_iff (message : Bytes) :
    Framed (writeShort message.length ++ message) message ↔ message.length < 65536 := by
  constructor
  · rintro ⟨length, same, two, value⟩
    have bound := Bytes.ofBigEndian_lt length
    rw [value, two] at bound
    exact bound
  · intro small
    exact ⟨_, rfl, Bytes.length_bigEndian _ _, Bytes.ofBigEndian_bigEndian small⟩

/-! ## Serving -/

/-- What has arrived when a connection is long enough to know the length of its query. -/
theorem exists_body {query : Bytes} {input : Chunked UInt8}
    (start : input.contents <+: frame query) (long : 2 ≤ input.contents.length) :
    ∃ body, input.contents = Bytes.bigEndian 2 query.length ++ body ∧ body <+: query := by
  have header : (Bytes.bigEndian 2 query.length).length ≤ input.contents.length := by
    rw [Bytes.length_bigEndian]
    exact long
  obtain ⟨body, arrived⟩ :=
    List.prefix_of_prefix_length_le (List.prefix_append _ query) start header
  obtain ⟨missing, whole⟩ := start
  rw [← arrived, frame, List.append_assoc] at whole
  exact ⟨body, arrived.symm, missing, List.append_cancel_left whole⟩

/-- A connection that is dropped is one that should be, if it was not a whole query. -/
theorem serves_of_none {worker : LocalDnsWorker} {query : Bytes} {input : Chunked UInt8}
    (failed : readQuery input = none) (early : input.contents ≠ frame query) :
    worker.Serves query input := by
  refine ⟨fun whole => absurd whole early, fun _ => ?_⟩
  rw [accept, failed]

/-- A query that is answered was a whole one, and the same. -/
theorem serves_of_some_iff {worker : LocalDnsWorker} {query asked : Bytes}
    {input : Chunked UInt8} (read : readQuery input = some asked) :
    worker.Serves query input ↔
      input.contents = frame query ∧ asked = query ∧ (worker.respond query).length < 65536 := by
  rw [Serves, accept, read]
  dsimp only
  by_cases whole : input.contents = frame query
  · simp only [whole, true_implies, ne_eq, not_true_eq_false, false_implies, and_true, true_and,
      Outcome.answered.injEq]
    constructor
    · rintro ⟨written, ⟨rfl, rfl⟩, framed⟩
      exact ⟨rfl, (framed_iff _).mp framed⟩
    · rintro ⟨rfl, small⟩
      exact ⟨_, ⟨rfl, rfl⟩, (framed_iff _).mpr small⟩
  · simp [whole]

/-- A query is served exactly if nothing of it is lost in the pieces behind the one that
brings its first byte, and a connection that ends in between is dropped exactly if it ends
in the length or breaks behind it. -/
theorem serves_iff_suffices (worker : LocalDnsWorker) {query : Bytes} {input : Chunked UInt8}
    (size : query.length ≤ 65535) (start : input.contents <+: frame query) :
    worker.Serves query input ↔ worker.Suffices query input := by
  have wholeLength : input.contents = frame query → input.contents.length = 2 + query.length := by
    intro whole
    rw [whole, frame, List.length_append, Bytes.length_bigEndian]
  by_cases short : input.contents.length < 2
  · have failed : readQuery input = none := by
      rw [readQuery, readUnsignedShort_of_short short]
    have early : input.contents ≠ frame query := fun whole => by
      have long := wholeLength whole
      omega
    exact ⟨fun _ => Or.inl short, fun _ => serves_of_none failed early⟩
  · obtain ⟨body, contents, inside⟩ := exists_body start (Nat.le_of_not_lt short)
    have bodyLength : input.contents.length = 2 + body.length := by
      rw [contents, List.length_append, Bytes.length_bigEndian]
    have wholeIff : input.contents = frame query ↔ body = query := by
      rw [contents, frame, List.append_cancel_left_eq]
    have emptyIff : input.contents.length = 2 ↔ body = [] := by
      rw [bodyLength, Nat.add_eq_left, List.length_eq_zero_iff]
    have asked := readQuery_eq size inside contents
    rw [Suffices, emptyIff]
    by_cases broken : body = [] ∧ query ≠ [] ∧ input.broken = true
    · rw [if_pos broken] at asked
      have early : input.contents ≠ frame query := by
        rw [ne_eq, wholeIff, broken.1]
        exact Ne.symm broken.2.1
      exact ⟨fun _ => Or.inr (Or.inl broken), fun _ => serves_of_none asked early⟩
    · rw [if_neg broken] at asked
      rw [serves_of_some_iff asked]
      simp only [short, broken, false_or]
      refine and_congr_right fun whole => and_congr_left' ?_
      rw [wholeIff.mp whole]
      exact padded_eq_iff query _

def echo : LocalDnsWorker where
  resolver query := some query
  servfail _ := none

def zeroTail : Chunked UInt8 := ⟨[[0, 2], [1], [0]], by decide, false⟩

theorem serves_zeroTail : zeroTail.contents <+: frame [1, 0] ∧ echo.Serves [1, 0] zeroTail := by
  have start : zeroTail.contents <+: frame [1, 0] := by decide
  refine ⟨start, (serves_iff_suffices echo (by decide) start).mpr (Or.inr (Or.inr ?_))⟩
  refine ⟨by decide, fun byte member => ?_, by decide⟩
  have rest : ([1, 0] : Bytes).drop (zeroTail.through 2 - 2) = [0] := by decide
  rw [rest] at member
  exact List.mem_singleton.mp member

def halves : Chunked UInt8 := ⟨[[0, 2, 1], [2]], by decide, false⟩

/-- The resolver is asked for the first byte and a zero. -/
theorem not_serves_halves : halves.contents = frame [1, 2] ∧ ¬ echo.Serves [1, 2] halves := by
  have whole : halves.contents = frame [1, 2] := by decide
  refine ⟨whole, fun serves => ?_⟩
  obtain ⟨written, answered, -⟩ := serves.1 whole
  have asked : echo.accept halves = .answered [1, 0] [0, 2, 1, 0] := rfl
  rw [asked] at answered
  cases answered

end LocalDnsWorker

end AlienConnection.Bg
