import AlienConnection.Library.Text
import Mathlib.Tactic.IntervalCases
import Mathlib.Tactic.Ring

/-!
# Bytes

Numbers written with the most significant byte first, and the UTF-8 encoding of
texts. A text is never longer in UTF-16 code units than in bytes, and cutting its
bytes at some place either cuts between two characters or leaves a byte in front
that is at least 128.
-/

namespace AlienConnection.Library

abbrev Bytes := List UInt8

namespace Bytes

/-! ## Numbers -/

def bigEndian : Nat → Nat → Bytes
  | 0, _ => []
  | width + 1, number => UInt8.ofNat (number / 256 ^ width) :: bigEndian width number

def ofBigEndian (bytes : Bytes) : Nat :=
  bytes.foldl (fun number byte => number * 256 + byte.toNat) 0

@[simp]
theorem length_bigEndian (width number : Nat) : (bigEndian width number).length = width := by
  induction width with
  | zero => rfl
  | succ width ih => rw [bigEndian, List.length_cons, ih]

theorem foldl_bigEndian (width number start : Nat) :
    (bigEndian width number).foldl (fun number byte => number * 256 + byte.toNat) start =
      start * 256 ^ width + number % 256 ^ width := by
  induction width generalizing start with
  | zero => simp [bigEndian, Nat.mod_one]
  | succ width ih =>
      have digit : (UInt8.ofNat (number / 256 ^ width)).toNat = number / 256 ^ width % 256 := by
        simp
      rw [bigEndian, List.foldl_cons, ih, digit, Nat.mod_pow_succ]
      ring

/-- A number is read from its bytes. -/
theorem ofBigEndian_bigEndian {width number : Nat} (small : number < 256 ^ width) :
    ofBigEndian (bigEndian width number) = number := by
  rw [ofBigEndian, foldl_bigEndian, Nat.zero_mul, Nat.zero_add, Nat.mod_eq_of_lt small]

theorem le_foldl (bytes : Bytes) (start : Nat) :
    start * 256 ^ bytes.length ≤
      bytes.foldl (fun number byte => number * 256 + byte.toNat) start := by
  induction bytes generalizing start with
  | nil => simp
  | cons byte rest ih =>
      calc start * 256 ^ (rest.length + 1)
          = start * 256 * 256 ^ rest.length := by ring
        _ ≤ (start * 256 + byte.toNat) * 256 ^ rest.length :=
            Nat.mul_le_mul_right _ (Nat.le_add_right _ _)
        _ ≤ _ := ih _

/-- The first byte bounds the number from below. -/
theorem le_ofBigEndian (byte : UInt8) (rest : Bytes) :
    byte.toNat * 256 ^ rest.length ≤ ofBigEndian (byte :: rest) := by
  have bound := le_foldl rest (0 * 256 + byte.toNat)
  rw [ofBigEndian, List.foldl_cons]
  simpa only [Nat.zero_mul, Nat.zero_add] using bound

theorem foldl_lt (bytes : Bytes) (start : Nat) :
    bytes.foldl (fun number byte => number * 256 + byte.toNat) start <
      (start + 1) * 256 ^ bytes.length := by
  induction bytes generalizing start with
  | nil => simp
  | cons byte rest ih =>
      have small : byte.toNat < 256 := byte.toNat_lt
      calc _ < (start * 256 + byte.toNat + 1) * 256 ^ rest.length := ih _
        _ ≤ ((start + 1) * 256) * 256 ^ rest.length := Nat.mul_le_mul_right _ (by omega)
        _ = (start + 1) * 256 ^ (rest.length + 1) := by ring

theorem ofBigEndian_lt (bytes : Bytes) : ofBigEndian bytes < 256 ^ bytes.length := by
  have bound := foldl_lt bytes 0
  rwa [Nat.zero_add, Nat.one_mul] at bound

end Bytes

/-! ## UTF-8 -/

namespace Text

def utf8 (text : Text) : Bytes := text.flatMap String.utf8EncodeChar

def ofUtf8 (bytes : Bytes) : Option Text := bytes.toByteArray.utf8Decode?.map Array.toList

theorem ofUtf8_utf8 (text : Text) : ofUtf8 (utf8 text) = some text := by
  have decoded := List.utf8Decode?_utf8Encode (l := text)
  rw [List.utf8Encode] at decoded
  rw [ofUtf8, utf8, decoded]
  rfl

@[simp]
theorem utf8_append (first second : Text) : utf8 (first ++ second) = utf8 first ++ utf8 second :=
  List.flatMap_append

theorem utf8_cons (char : Char) (rest : Text) :
    utf8 (char :: rest) = String.utf8EncodeChar char ++ utf8 rest := rfl

def isAscii (text : Text) : Bool := text.all (fun char => char.toNat < 128)

theorem length_utf8EncodeChar_eq (char : Char) :
    (String.utf8EncodeChar char).length =
      if char.toNat ≤ 127 then 1
      else if char.toNat ≤ 2047 then 2
      else if char.toNat ≤ 65535 then 3
      else 4 := by
  unfold String.utf8EncodeChar
  simp only [Char.toNat]
  split_ifs <;> rfl

/-- A character takes as many bytes as code units if it is ASCII, and more bytes
otherwise. -/
theorem length_units_cases (char : Char) :
    (char.toNat < 128 ∧ (units char).length = (String.utf8EncodeChar char).length) ∨
      (¬ char.toNat < 128 ∧ (units char).length < (String.utf8EncodeChar char).length) := by
  rw [length_utf8EncodeChar_eq]
  rcases units_cases char with ⟨encoded, _⟩ | ⟨encoded, low, high⟩
  · rw [encoded, List.length_singleton]
    split_ifs <;> omega
  · have length : (units char).length = 2 := by rw [encoded]; rfl
    rw [length]
    split_ifs <;> omega

theorem length_utf16_le (text : Text) : (utf16 text).length ≤ (utf8 text).length := by
  induction text with
  | nil => exact Nat.le_refl _
  | cons char rest ih =>
      rw [utf16, utf8, List.flatMap_cons, List.flatMap_cons, List.length_append,
        List.length_append]
      rcases length_units_cases char with ⟨_, same⟩ | ⟨_, fewer⟩
      · exact Nat.add_le_add (Nat.le_of_eq same) ih
      · exact Nat.add_le_add (Nat.le_of_lt fewer) ih

/-- Characters and bytes coincide for ASCII texts only. -/
theorem length_utf16_eq_iff (text : Text) :
    (utf16 text).length = (utf8 text).length ↔ isAscii text = true := by
  induction text with
  | nil => exact ⟨fun _ => rfl, fun _ => rfl⟩
  | cons char rest ih =>
      have tail := length_utf16_le rest
      rw [utf16, utf8] at ih tail
      rw [utf16, utf8, List.flatMap_cons, List.flatMap_cons, List.length_append,
        List.length_append, isAscii, List.all_cons, Bool.and_eq_true, ← isAscii, ← ih,
        decide_eq_true_iff]
      rcases length_units_cases char with ⟨small, same⟩ | ⟨large, fewer⟩
      · exact ⟨fun total => ⟨small, by omega⟩, fun both => by omega⟩
      · exact ⟨fun total => by omega, fun both => absurd both.1 large⟩

/-- All bytes of a character but the first are at least 128. -/
theorem continuation (char : Char) :
    ∀ byte ∈ (String.utf8EncodeChar char).tail, 128 ≤ byte.toNat := by
  have high : ∀ number, 128 ≤ (UInt8.ofNat (number % 64 + 128)).toNat := by
    intro number
    rw [UInt8.toNat_ofNat']
    omega
  intro byte member
  unfold String.utf8EncodeChar at member
  dsimp only at member
  split_ifs at member <;> simp only [List.tail_cons, List.mem_cons, List.not_mem_nil,
    or_false] at member
  · rw [member]
    exact high _
  · rcases member with rfl | rfl <;> exact high _
  · rcases member with rfl | rfl | rfl <;> exact high _

/-- Behind its first byte a character is cut before a byte that is at least 128. -/
theorem drop_utf8EncodeChar {char : Char} {place : Nat}
    (within : place + 1 < (String.utf8EncodeChar char).length) :
    ∃ byte rest, (String.utf8EncodeChar char).drop (place + 1) = byte :: rest ∧
      128 ≤ byte.toNat := by
  have tail : (String.utf8EncodeChar char).drop (place + 1) =
      (String.utf8EncodeChar char).tail.drop place := by
    rw [List.drop_tail]
  have inside : place < (String.utf8EncodeChar char).tail.length := by
    rw [List.length_tail]
    omega
  rw [tail, List.drop_eq_getElem_cons inside]
  exact ⟨_, _, rfl, continuation char _ (List.getElem_mem _)⟩

/-- Where the bytes of a text are cut: between two characters, or before a byte that is
at least 128. -/
theorem utf8_cut {text : Text} {place : Nat} (inside : place < (utf8 text).length) :
    (∃ first rest, text = first ++ rest ∧ (utf8 first).length = place) ∨
      ∃ byte rest, (utf8 text).drop place = byte :: rest ∧ 128 ≤ byte.toNat := by
  induction text generalizing place with
  | nil => cases inside
  | cons char rest ih =>
      rw [utf8_cons, List.length_append] at inside
      rw [utf8_cons]
      rcases Nat.lt_or_ge place (String.utf8EncodeChar char).length with within | behind
      · cases place with
        | zero => exact Or.inl ⟨[], char :: rest, rfl, rfl⟩
        | succ place =>
            obtain ⟨byte, more, dropped, high⟩ := drop_utf8EncodeChar within
            refine Or.inr ⟨byte, more ++ utf8 rest, ?_, high⟩
            rw [List.drop_append_of_le_length (Nat.le_of_lt within), dropped, List.cons_append]
      · have later : place - (String.utf8EncodeChar char).length < (utf8 rest).length := by omega
        rcases ih later with ⟨first, last, same, length⟩ | ⟨byte, more, dropped, high⟩
        · refine Or.inl ⟨char :: first, last, by rw [same, List.cons_append], ?_⟩
          rw [utf8_cons, List.length_append, length]
          omega
        · refine Or.inr ⟨byte, more, ?_, high⟩
          rw [List.drop_append, List.drop_eq_nil_of_le behind, List.nil_append, dropped]

/-- The first bytes of a text: those of its first characters, and perhaps some of the bytes of
the next one. -/
theorem utf8_take {text : Text} {place : Nat} (inside : place < (utf8 text).length) :
    ∃ front char rest count, text = front ++ char :: rest ∧
      count < (String.utf8EncodeChar char).length ∧
      (utf8 text).take place = utf8 front ++ (String.utf8EncodeChar char).take count := by
  induction text generalizing place with
  | nil => cases inside
  | cons char rest ih =>
      rw [utf8_cons, List.length_append] at inside
      rw [utf8_cons]
      rcases Nat.lt_or_ge place (String.utf8EncodeChar char).length with within | behind
      · refine ⟨[], char, rest, place, rfl, within, ?_⟩
        rw [List.take_append_of_le_length (Nat.le_of_lt within)]
        rfl
      · have later : place - (String.utf8EncodeChar char).length < (utf8 rest).length := by omega
        obtain ⟨front, next, more, count, same, fewer, taken⟩ := ih later
        refine ⟨char :: front, next, more, count, by rw [same]; rfl, fewer, ?_⟩
        rw [List.take_append, List.take_of_length_le behind, taken, utf8_cons, List.append_assoc]

/-- The bytes of two texts begin with the same character. -/
theorem eq_of_utf8EncodeChar {first second : Char} {behind other : Bytes}
    (same : String.utf8EncodeChar first ++ behind = String.utf8EncodeChar second ++ other) :
    first = second := by
  have decoded := congrArg (fun bytes : Bytes => bytes.toByteArray.utf8DecodeChar? 0) same
  simp only [List.toByteArray_append, ByteArray.utf8DecodeChar?_utf8EncodeChar_append] at decoded
  exact Option.some.inj decoded

/-- A part of a character is not the text of anything. -/
theorem ofUtf8_truncated (front : Text) {char : Char} {count : Nat} (some : 0 < count)
    (fewer : count < (String.utf8EncodeChar char).length) :
    ofUtf8 (utf8 front ++ (String.utf8EncodeChar char).take count) = none := by
  have split : (String.utf8EncodeChar char).take count ++ (String.utf8EncodeChar char).drop count =
      String.utf8EncodeChar char := List.take_append_drop _ _
  have taken : ((String.utf8EncodeChar char).take count).length = count :=
    List.length_take_of_le (Nat.le_of_lt fewer)
  have impossible : ∀ text : Text,
      utf8 text ≠ utf8 front ++ (String.utf8EncodeChar char).take count := by
    induction front with
    | nil =>
        intro text same
        cases text with
        | nil =>
            have length : 0 = ((String.utf8EncodeChar char).take count).length :=
              congrArg List.length same
            omega
        | cons first rest =>
            rw [utf8_cons] at same
            have equal : first = char := by
              apply @eq_of_utf8EncodeChar _ _
                (utf8 rest ++ (String.utf8EncodeChar char).drop count) []
              rw [← List.append_assoc, same, List.append_nil]
              exact split
            have length : (String.utf8EncodeChar first ++ utf8 rest).length =
                ((String.utf8EncodeChar char).take count).length := congrArg List.length same
            rw [equal, List.length_append] at length
            omega
    | cons own front ih =>
        intro text same
        cases text with
        | nil =>
            rw [utf8_cons] at same
            have empty := (List.append_eq_nil_iff.mp (List.append_eq_nil_iff.mp same.symm).1).1
            exact String.utf8EncodeChar_ne_nil empty
        | cons first rest =>
            rw [utf8_cons, utf8_cons, List.append_assoc] at same
            obtain rfl := eq_of_utf8EncodeChar same
            exact ih rest (List.append_cancel_left same)
  rw [ofUtf8, Option.map_eq_none_iff, ← Option.isNone_iff_eq_none, ← Option.not_isSome,
    Bool.not_eq_true', Bool.eq_false_iff, Ne, ByteArray.isSome_utf8Decode?_iff]
  rintro ⟨text, same⟩
  apply impossible text
  have bytes := congrArg (fun array => array.data.toList) same
  simpa [List.utf8Encode, utf8] using bytes.symm

end Text

/-- A string of the platform: well-formed Unicode, of a length that an `Int` can hold. -/
@[ext]
structure JavaString where
  text : Text
  bounded : (Text.utf16 text).length < 2 ^ 31
  deriving DecidableEq

namespace JavaString

/-- Strings of a length that an `Int` can hold, which are all that the platform has. -/
def Fits (string : String) : Prop := (Text.utf16 string.toList).length < 2 ^ 31

instance : DecidablePred Fits := fun string =>
  inferInstanceAs (Decidable ((Text.utf16 string.toList).length < 2 ^ 31))

def ofString (string : String) : JavaString :=
  if fits : Fits string then ⟨string.toList, fits⟩ else ⟨[], by decide⟩

def toString (string : JavaString) : String := String.ofList string.text

theorem toString_ofString {string : String} (fits : Fits string) :
    (ofString string).toString = string := by
  rw [ofString, dif_pos fits]
  exact String.ofList_toList

end JavaString

end AlienConnection.Library
