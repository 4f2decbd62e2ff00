import AlienConnection.Library.Bytes

/-!
# Reading values from bytes

A reader takes a value from the front of some bytes and leaves the others.
-/

namespace AlienConnection.Library

/-! ## Numbers in bytes -/

namespace Bytes

theorem ofBigEndian_append (first second : Bytes) :
    ofBigEndian (first ++ second) =
      ofBigEndian first * 256 ^ second.length + ofBigEndian second := by
  unfold ofBigEndian
  rw [List.foldl_append]
  generalize first.foldl (fun number byte => number * 256 + byte.toNat) 0 = start
  induction second generalizing start with
  | nil => simp
  | cons byte rest ih =>
      rw [List.foldl_cons, List.foldl_cons, ih, ih (0 * 256 + byte.toNat), List.length_cons,
        Nat.pow_succ]
      ring

theorem ofBigEndian_cons (byte : UInt8) (rest : Bytes) :
    ofBigEndian (byte :: rest) = byte.toNat * 256 ^ rest.length + ofBigEndian rest := by
  have split := ofBigEndian_append [byte] rest
  rw [List.singleton_append] at split
  rw [split]
  simp [ofBigEndian]

/-- As many bytes with the same number are the same. -/
theorem ofBigEndian_inj {first second : Bytes} (length : first.length = second.length)
    (same : ofBigEndian first = ofBigEndian second) : first = second := by
  induction first generalizing second with
  | nil => exact (List.eq_nil_of_length_eq_zero length.symm).symm
  | cons byte rest ih =>
      cases second with
      | nil => cases length
      | cons other others =>
          have short : rest.length = others.length := Nat.succ.inj length
          rw [ofBigEndian_cons, ofBigEndian_cons, short] at same
          have positive : 0 < 256 ^ others.length := Nat.pow_pos (by decide)
          have small := ofBigEndian_lt rest
          rw [short] at small
          have heads := congrArg (· / 256 ^ others.length) same
          have tails := congrArg (· % 256 ^ others.length) same
          simp only [Nat.mul_comm _ (256 ^ others.length), Nat.mul_add_div positive,
            Nat.div_eq_of_lt small, Nat.div_eq_of_lt (ofBigEndian_lt others), Nat.add_zero,
            Nat.mul_add_mod, Nat.mod_eq_of_lt small,
            Nat.mod_eq_of_lt (ofBigEndian_lt others)] at heads tails
          rw [UInt8.toNat_inj.mp heads, ih short tails]

/-- Bytes are read from their number. -/
theorem bigEndian_ofBigEndian (bytes : Bytes) :
    bigEndian bytes.length (ofBigEndian bytes) = bytes :=
  ofBigEndian_inj (length_bigEndian _ _) (ofBigEndian_bigEndian (ofBigEndian_lt bytes))

end Bytes

/-- Bytes that are decoded are the encoding of what they are decoded to. -/
theorem Text.utf8_of_ofUtf8 {bytes : Bytes} {text : Text}
    (decoded : Text.ofUtf8 bytes = some text) : Text.utf8 text = bytes := by
  rw [Text.ofUtf8, Option.map_eq_some_iff] at decoded
  obtain ⟨chars, found, rfl⟩ := decoded
  have valid : bytes.toByteArray.utf8Decode?.isSome = true := by rw [found]; rfl
  have encoded := @ByteArray.utf8Encode_get_utf8Decode? _ valid
  simp only [found, Option.get_some, List.utf8Encode] at encoded
  have data := congrArg (fun array : ByteArray => array.data.toList) encoded
  simpa [Text.utf8] using data

/-! ## Readers -/

theorem except_bind_eq_ok_iff {ε α β : Type} {first : Except ε α} {next : α → Except ε β}
    {result : β} :
    (first >>= next) = .ok result ↔ ∃ value, first = .ok value ∧ next value = .ok result := by
  cases first with
  | error failure =>
      constructor
      · intro failed
        cases failed
      · rintro ⟨value, failed, _⟩
        cases failed
  | ok value =>
      constructor
      · intro done
        exact ⟨value, rfl, done⟩
      · rintro ⟨other, same, done⟩
        cases same
        exact done

abbrev Reader (ε α : Type) := StateT Bytes (Except ε) α

namespace Reader

variable {ε α β : Type}

def readExact (short : ε) (count : Nat) : Reader ε Bytes := fun bytes =>
  if bytes.length < count then .error short else .ok (bytes.take count, bytes.drop count)

theorem bind_eq_ok_iff {reader : Reader ε α} {next : α → Reader ε β} {bytes rest : Bytes}
    {value : β} :
    (reader >>= next) bytes = .ok (value, rest) ↔
      ∃ first middle, reader bytes = .ok (first, middle) ∧
        next first middle = .ok (value, rest) := by
  change (reader bytes >>= fun read => next read.1 read.2) = _ ↔ _
  rw [except_bind_eq_ok_iff, Prod.exists]

theorem readExact_eq_ok_iff {short : ε} {count : Nat} {bytes front rest : Bytes} :
    readExact short count bytes = .ok (front, rest) ↔
      bytes = front ++ rest ∧ front.length = count := by
  unfold readExact
  split
  · rename_i few
    constructor
    · intro failed
      cases failed
    · rintro ⟨rfl, rfl⟩
      simp at few
  · rename_i enough
    constructor
    · intro read
      cases read
      exact ⟨(List.take_append_drop _ _).symm, List.length_take_of_le (Nat.le_of_not_lt enough)⟩
    · rintro ⟨rfl, rfl⟩
      simp

theorem pure_eq_ok_iff {value other : α} {bytes rest : Bytes} :
    (pure value : Reader ε α) bytes = .ok (other, rest) ↔ value = other ∧ bytes = rest := by
  change Except.ok (value, bytes) = .ok (other, rest) ↔ _
  rw [Except.ok.injEq, Prod.mk.injEq]

theorem throw_ne_ok {failure : ε} {bytes rest : Bytes} {value : α} :
    (throw failure : Reader ε α) bytes ≠ .ok (value, rest) := by
  intro thrown
  cases thrown

end Reader

end AlienConnection.Library
