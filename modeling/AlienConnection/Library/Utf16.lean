import AlienConnection.Library.Bytes

/-!
# Strings of code units

A string of the platform is a list of UTF-16 code units, in which surrogates need not come in
pairs. Where they do, the string is a text. Only then its bytes in UTF-8 can be read back: a
surrogate without its partner is written as a question mark. The first six bits of a code unit
tell whether it is a surrogate.
-/

namespace AlienConnection.Library.Utf16

def page (unit : Nat) : Nat := unit / 0x400

def isHigh (unit : Nat) : Bool := decide (page unit = 54)

def isLow (unit : Nat) : Bool := decide (page unit = 55)

theorem isHigh_iff {unit : Nat} : isHigh unit = true ↔ 0xd800 ≤ unit ∧ unit < 0xdc00 := by
  rw [isHigh, decide_eq_true_iff, page]
  omega

theorem isLow_iff {unit : Nat} : isLow unit = true ↔ 0xdc00 ≤ unit ∧ unit < 0xe000 := by
  rw [isLow, decide_eq_true_iff, page]
  omega

/-- Surrogates come in pairs, and everything else is a character by itself. -/
inductive WellFormed : List Nat → Prop
  | nil : WellFormed []
  | single {unit : Nat} {rest : List Nat} (small : unit < 0x10000) (notHigh : isHigh unit = false)
      (notLow : isLow unit = false) (wellFormed : WellFormed rest) : WellFormed (unit :: rest)
  | pair {high low : Nat} {rest : List Nat} (isHigh : isHigh high = true)
      (isLow : isLow low = true) (wellFormed : WellFormed rest) : WellFormed (high :: low :: rest)

def pairChar (high low : Nat) : Char :=
  Char.ofNat (0x10000 + (high - 0xd800) * 0x400 + (low - 0xdc00))

def toUtf8 : List Nat → Bytes
  | [] => []
  | [unit] =>
      if isHigh unit || isLow unit then [63] else String.utf8EncodeChar (Char.ofNat unit)
  | unit :: next :: rest =>
      if isHigh unit && isLow next then
        String.utf8EncodeChar (pairChar unit next) ++ toUtf8 rest
      else if isHigh unit || isLow unit then 63 :: toUtf8 (next :: rest)
      else String.utf8EncodeChar (Char.ofNat unit) ++ toUtf8 (next :: rest)

/-- The string of some bytes. Those that are no text in UTF-8 are decoded with replacements. -/
def fromUtf8 (malformed : Bytes → List Nat) (bytes : Bytes) : List Nat :=
  match Text.ofUtf8 bytes with
  | none => malformed bytes
  | some text => Text.utf16 text

/-! ## Texts -/

theorem toNat_ofNat {number : Nat} (valid : number.isValidChar) :
    (Char.ofNat number).toNat = number := by
  rw [Char.ofNat, dif_pos valid]
  rfl

/-- Every well-formed string is the encoding of a text. -/
theorem WellFormed.exists_text {units : List Nat} (wellFormed : WellFormed units) :
    ∃ text, Text.utf16 text = units := by
  induction wellFormed with
  | nil => exact ⟨[], rfl⟩
  | @single unit rest small notHigh notLow _ ih =>
      obtain ⟨text, same⟩ := ih
      rw [← Bool.not_eq_true, isHigh_iff] at notHigh
      rw [← Bool.not_eq_true, isLow_iff] at notLow
      have valid : unit.isValidChar := by
        unfold Nat.isValidChar
        omega
      refine ⟨Char.ofNat unit :: text, ?_⟩
      rw [Text.utf16, List.flatMap_cons, ← Text.utf16, same, Text.units, toNat_ofNat valid,
        if_pos small]
      rfl
  | @pair high low rest isHigh isLow _ ih =>
      obtain ⟨text, same⟩ := ih
      rw [isHigh_iff] at isHigh
      rw [isLow_iff] at isLow
      have valid : (0x10000 + (high - 0xd800) * 0x400 + (low - 0xdc00)).isValidChar := by
        unfold Nat.isValidChar
        omega
      refine ⟨pairChar high low :: text, ?_⟩
      have large : ¬ 0x10000 + (high - 0xd800) * 0x400 + (low - 0xdc00) < 0x10000 := by omega
      have first : 0xd800 + (0x10000 + (high - 0xd800) * 0x400 + (low - 0xdc00) - 0x10000) /
          0x400 = high := by omega
      have second : 0xdc00 + (0x10000 + (high - 0xd800) * 0x400 + (low - 0xdc00) - 0x10000) %
          0x400 = low := by omega
      have units : Text.units (pairChar high low) = [high, low] := by
        rw [Text.units, pairChar, toNat_ofNat valid, if_neg large, first, second]
      rw [Text.utf16, List.flatMap_cons, ← Text.utf16, same, units]
      rfl

theorem toUtf8_single {unit : Nat} (notHigh : isHigh unit = false) (notLow : isLow unit = false)
    (rest : List Nat) :
    toUtf8 (unit :: rest) = String.utf8EncodeChar (Char.ofNat unit) ++ toUtf8 rest := by
  cases rest with
  | nil => simp [toUtf8, notHigh, notLow]
  | cons next rest => simp [toUtf8, notHigh, notLow]

/-- The bytes of an encoded text are those of the text. -/
theorem toUtf8_utf16 (text : Text) : toUtf8 (Text.utf16 text) = Text.utf8 text := by
  induction text with
  | nil => rfl
  | cons char rest ih =>
      have split : Text.utf16 (char :: rest) = Text.units char ++ Text.utf16 rest := rfl
      rw [split, Text.utf8_cons]
      rcases Text.units_cases char with ⟨encoded, range⟩ | ⟨encoded, low, high⟩
      · have notHigh : isHigh char.toNat = false := by
          rw [← Bool.not_eq_true, isHigh_iff]
          omega
        have notLow : isLow char.toNat = false := by
          rw [← Bool.not_eq_true, isLow_iff]
          omega
        rw [encoded, List.singleton_append, toUtf8_single notHigh notLow, ih, Char.ofNat_toNat]
      · have isHigh : isHigh (0xd800 + (char.toNat - 0x10000) / 0x400) = true := by
          rw [isHigh_iff]
          omega
        have isLow : isLow (0xdc00 + (char.toNat - 0x10000) % 0x400) = true := by
          rw [isLow_iff]
          omega
        have whole : pairChar (0xd800 + (char.toNat - 0x10000) / 0x400)
            (0xdc00 + (char.toNat - 0x10000) % 0x400) = char := by
          have value : 0x10000 + (0xd800 + (char.toNat - 0x10000) / 0x400 - 0xd800) * 0x400 +
              (0xdc00 + (char.toNat - 0x10000) % 0x400 - 0xdc00) = char.toNat := by omega
          rw [pairChar, value, Char.ofNat_toNat]
        rw [encoded, List.cons_append, List.singleton_append, toUtf8, isHigh, isLow,
          Bool.and_self, if_pos rfl, whole, ih]

/-- UTF-8 does not alter a well-formed string. -/
theorem fromUtf8_toUtf8 (malformed : Bytes → List Nat) {units : List Nat}
    (wellFormed : WellFormed units) : fromUtf8 malformed (toUtf8 units) = units := by
  obtain ⟨text, rfl⟩ := wellFormed.exists_text
  rw [toUtf8_utf16, fromUtf8, Text.ofUtf8_utf8]

/-! ## Changes of the last bits -/

/-- The last seven bits are not in the page. -/
theorem page_xor {unit key : Nat} (ascii : key < 128) : page (unit ^^^ key) = page unit := by
  have shifted : (unit ^^^ key) >>> 10 = unit >>> 10 ^^^ key >>> 10 := Nat.shiftRight_xor_distrib
  have none : key >>> 10 = 0 := by
    rw [Nat.shiftRight_eq_div_pow]
    omega
  rw [none, Nat.xor_zero, Nat.shiftRight_eq_div_pow, Nat.shiftRight_eq_div_pow] at shifted
  exact shifted

theorem isHigh_xor {unit key : Nat} (ascii : key < 128) : isHigh (unit ^^^ key) = isHigh unit := by
  rw [isHigh, isHigh, page_xor ascii]

theorem isLow_xor {unit key : Nat} (ascii : key < 128) : isLow (unit ^^^ key) = isLow unit := by
  rw [isLow, isLow, page_xor ascii]

theorem xor_small {unit key : Nat} (small : unit < 0x10000) (ascii : key < 128) :
    unit ^^^ key < 0x10000 :=
  @Nat.xor_lt_two_pow unit key 16 small (by omega)

end AlienConnection.Library.Utf16
