import AlienConnection.Library.Base64Text
import AlienConnection.Library.Utf16

/-!
# Coding of requests and responses

The text of a request is mixed with the digits of a timestamp, code unit by code unit, and then
written as Base64 of its UTF-8 bytes. A response is read the other way round. The mixing only
touches the last seven bits of a code unit, so surrogates stay what they are and UTF-8 loses
nothing in between.
-/

namespace AlienConnection.Net.Postadmin

open Library

/-- The loop of `xorWithTimestamp` from an index on. The remainder by the length of an empty
key throws. -/
def xorFrom (cycleKey : List Nat) : Nat → List Nat → Option (List Nat)
  | _, [] => some []
  | index, char :: rest =>
      match cycleKey[index % cycleKey.length]?, xorFrom cycleKey (index + 1) rest with
      | some key, some mixed => some ((char ^^^ key) % 0x10000 :: mixed)
      | _, _ => none

def xorWithTimestamp (text timestamp : List Nat) : Option (List Nat) := xorFrom timestamp 0 text

def encodeRequest (text timestamp : List Nat) : Option Text :=
  (xorWithTimestamp text timestamp).map fun mixed => Base64.encodePadded (Utf16.toUtf8 mixed)

def decodeResponse (malformed : Bytes → List Nat) (response : Text) (timestamp : List Nat) :
    Option (List Nat) :=
  (Base64.decodeLenient response).bind fun decoded =>
    xorWithTimestamp (Utf16.fromUtf8 malformed decoded) timestamp

structure IsTimestamp (timestamp : List Nat) : Prop where
  nonempty : timestamp ≠ []
  ascii : ∀ unit ∈ timestamp, unit < 128

variable {timestamp : List Nat}

theorem IsTimestamp.key (isTimestamp : IsTimestamp timestamp) (index : Nat) :
    ∃ key, timestamp[index % timestamp.length]? = some key ∧ key < 128 := by
  have positive : 0 < timestamp.length := List.length_pos_iff.mpr isTimestamp.nonempty
  have inside := Nat.mod_lt index positive
  exact ⟨_, List.getElem?_eq_getElem inside, isTimestamp.ascii _ (List.getElem_mem inside)⟩

theorem xorFrom_cons {index char key : Nat} {rest mixed : List Nat}
    (found : timestamp[index % timestamp.length]? = some key) (small : char < 0x10000)
    (ascii : key < 128) (later : xorFrom timestamp (index + 1) rest = some mixed) :
    xorFrom timestamp index (char :: rest) = some ((char ^^^ key) :: mixed) := by
  rw [xorFrom, found, later]
  exact congrArg (fun unit => some (unit :: mixed))
    (Nat.mod_eq_of_lt (Utf16.xor_small small ascii))

/-- One code unit is mixed and mixed back. -/
theorem xorFrom_pair {index char key : Nat} {rest mixed : List Nat}
    (found : timestamp[index % timestamp.length]? = some key) (small : char < 0x10000)
    (ascii : key < 128) (forth : xorFrom timestamp (index + 1) rest = some mixed)
    (back : xorFrom timestamp (index + 1) mixed = some rest) :
    xorFrom timestamp index (char :: rest) = some ((char ^^^ key) :: mixed) ∧
      xorFrom timestamp index ((char ^^^ key) :: mixed) = some (char :: rest) := by
  refine ⟨xorFrom_cons found small ascii forth, ?_⟩
  rw [xorFrom_cons found (Utf16.xor_small small ascii) ascii back, Nat.xor_assoc, Nat.xor_self,
    Nat.xor_zero]

/-- Mixing keeps a string well formed, and mixing twice gives it back. -/
theorem xorFrom_wellFormed (isTimestamp : IsTimestamp timestamp) {text : List Nat}
    (wellFormed : Utf16.WellFormed text) (index : Nat) :
    ∃ mixed, xorFrom timestamp index text = some mixed ∧ Utf16.WellFormed mixed ∧
      xorFrom timestamp index mixed = some text := by
  induction wellFormed generalizing index with
  | nil => exact ⟨[], rfl, .nil, rfl⟩
  | single small notHigh notLow _ ih =>
      obtain ⟨mixed, forth, kept, back⟩ := ih (index + 1)
      obtain ⟨key, found, ascii⟩ := isTimestamp.key index
      obtain ⟨mixes, returns⟩ := xorFrom_pair found small ascii forth back
      refine ⟨_, mixes, .single (Utf16.xor_small small ascii) ?_ ?_ kept, returns⟩
      · rw [Utf16.isHigh_xor ascii, notHigh]
      · rw [Utf16.isLow_xor ascii, notLow]
  | pair isHigh isLow _ ih =>
      obtain ⟨mixed, forth, kept, back⟩ := ih (index + 2)
      obtain ⟨key, found, ascii⟩ := isTimestamp.key index
      obtain ⟨next, nextFound, nextAscii⟩ := isTimestamp.key (index + 1)
      have smallHigh := (Utf16.isHigh_iff.mp isHigh).2
      have smallLow := (Utf16.isLow_iff.mp isLow).2
      obtain ⟨mixesLow, returnsLow⟩ :=
        xorFrom_pair nextFound (Nat.lt_trans smallLow (by decide)) nextAscii forth back
      obtain ⟨mixes, returns⟩ :=
        xorFrom_pair found (Nat.lt_trans smallHigh (by decide)) ascii mixesLow returnsLow
      refine ⟨_, mixes, .pair ?_ ?_ kept, returns⟩
      · rw [Utf16.isHigh_xor ascii, isHigh]
      · rw [Utf16.isLow_xor nextAscii, isLow]

/-- **Coding round-trips.** The mixed string is well formed, UTF-8 does not alter it, and
reading what was written with the same timestamp gives the text back. -/
theorem decodeResponse_encodeRequest (malformed : Bytes → List Nat) (text timestamp : List Nat)
    (wellFormed : Utf16.WellFormed text) (isTimestamp : IsTimestamp timestamp) :
    ∃ mixed body, xorWithTimestamp text timestamp = some mixed ∧ Utf16.WellFormed mixed ∧
      Utf16.fromUtf8 malformed (Utf16.toUtf8 mixed) = mixed ∧
      encodeRequest text timestamp = some body ∧
      decodeResponse malformed body timestamp = some text := by
  obtain ⟨mixed, mixes, kept, returns⟩ := xorFrom_wellFormed isTimestamp wellFormed 0
  have unaltered := Utf16.fromUtf8_toUtf8 malformed kept
  refine ⟨mixed, Base64.encodePadded (Utf16.toUtf8 mixed), mixes, kept, unaltered, ?_, ?_⟩
  · exact congrArg (Option.map fun mixed => Base64.encodePadded (Utf16.toUtf8 mixed)) mixes
  · rw [decodeResponse, Base64.decodeLenient_encodePadded, Option.bind_some, unaltered]
    exact returns

/-- A letter and a surrogate pair, with a timestamp of two digits. -/
theorem decodeResponse_encodeRequest_pair :
    ∃ mixed body, xorWithTimestamp [0x61, 0xd83d, 0xde00] [0x31, 0x37] = some mixed ∧
      Utf16.WellFormed mixed ∧ Utf16.fromUtf8 (fun _ => []) (Utf16.toUtf8 mixed) = mixed ∧
      encodeRequest [0x61, 0xd83d, 0xde00] [0x31, 0x37] = some body ∧
      decodeResponse (fun _ => []) body [0x31, 0x37] = some [0x61, 0xd83d, 0xde00] :=
  decodeResponse_encodeRequest _ _ _
    (.single (by decide) (by decide) (by decide) (.pair (by decide) (by decide) .nil))
    ⟨by decide, by decide⟩

end AlienConnection.Net.Postadmin
