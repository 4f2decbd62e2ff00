import AlienConnection.Library.Bytes

/-!
# Base64

Three bytes are four digits of six bits; the last group may be short, and nothing is
padded. There are two alphabets, which differ in their last two digits.
-/

namespace AlienConnection.Library.Base64

inductive Variant where
  | standard
  | urlSafe
  deriving DecidableEq

def extra : Variant → Char × Char
  | .standard => ('+', '/')
  | .urlSafe => ('-', '_')

def digit (variant : Variant) (value : Nat) : Char :=
  if value < 26 then Char.ofNat (65 + value)
  else if value < 52 then Char.ofNat (71 + value)
  else if value < 62 then Char.ofNat (value - 4)
  else if value = 62 then (extra variant).1
  else (extra variant).2

def value (variant : Variant) (char : Char) : Option Nat :=
  if char.isUpper then some (char.toNat - 65)
  else if char.isLower then some (char.toNat - 71)
  else if char.isDigit then some (char.toNat + 4)
  else if char = (extra variant).1 then some 62
  else if char = (extra variant).2 then some 63
  else none

def isDigit (variant : Variant) (char : Char) : Bool := (value variant char).isSome

def encode (variant : Variant) : Bytes → Text
  | [] => []
  | [first] => [digit variant (first.toNat / 4), digit variant (first.toNat % 4 * 16)]
  | [first, second] =>
      [digit variant (first.toNat / 4), digit variant (first.toNat % 4 * 16 + second.toNat / 16),
        digit variant (second.toNat % 16 * 4)]
  | first :: second :: third :: rest =>
      digit variant (first.toNat / 4) ::
        digit variant (first.toNat % 4 * 16 + second.toNat / 16) ::
        digit variant (second.toNat % 16 * 4 + third.toNat / 64) ::
        digit variant (third.toNat % 64) :: encode variant rest

/-- The byte that begins with the last bits of one digit and ends in the next one. -/
def byte (high low : Nat) : UInt8 := UInt8.ofNat (high + low)

/-- The bytes of some digits. A single digit at the end, and any other character, is
refused. -/
def decode (variant : Variant) : Text → Option Bytes
  | [] => some []
  | [_] => none
  | [first, second] => do
      let first ← value variant first
      let second ← value variant second
      some [byte (first * 4) (second / 16)]
  | [first, second, third] => do
      let first ← value variant first
      let second ← value variant second
      let third ← value variant third
      some [byte (first * 4) (second / 16), byte (second % 16 * 16) (third / 4)]
  | first :: second :: third :: fourth :: rest => do
      let first ← value variant first
      let second ← value variant second
      let third ← value variant third
      let fourth ← value variant fourth
      let rest ← decode variant rest
      some (byte (first * 4) (second / 16) :: byte (second % 16 * 16) (third / 4) ::
        byte (third % 4 * 64) fourth :: rest)

theorem value_digit (variant : Variant) {number : Nat} (small : number < 64) :
    value variant (digit variant number) = some number := by
  have table : ∀ number < 64, value variant (digit variant number) = some number := by
    cases variant <;> decide
  exact table number small

theorem isDigit_digit (variant : Variant) (number : Nat) :
    isDigit variant (digit variant number) = true := by
  by_cases small : number < 64
  · rw [isDigit, value_digit variant small]
    rfl
  · have last : digit variant number = (extra variant).2 := by
      rw [digit, if_neg (by omega), if_neg (by omega), if_neg (by omega), if_neg (by omega)]
    rw [last]
    cases variant <;> rfl

/-- The alphabet: letters, decimal digits and the two others. -/
theorem isDigit_cases {variant : Variant} {char : Char} (digit : isDigit variant char = true) :
    char.isAlphanum = true ∨ char = (extra variant).1 ∨ char = (extra variant).2 := by
  change ((char.isUpper || char.isLower) || char.isDigit) = true ∨ _
  rw [isDigit, value] at digit
  split at digit
  next upper => simp [upper]
  next =>
    split at digit
    next lower => simp [lower]
    next =>
      split at digit
      next decimal => simp [decimal]
      next =>
        split at digit
        next same => exact Or.inr (Or.inl same)
        next =>
          split at digit
          next same => exact Or.inr (Or.inr same)
          next => cases digit

/-- A character of the alphabet is the digit of its value. -/
theorem digit_value {variant : Variant} {char : Char} {number : Nat}
    (read : value variant char = some number) : digit variant number = char ∧ number < 64 := by
  have same : Char.ofNat char.toNat = char := Char.ofNat_toNat char
  unfold value at read
  split at read
  next upper =>
    cases read
    have range := Text.toNat_of_isUpper upper
    rw [digit, if_pos (by omega), show 65 + (char.toNat - 65) = char.toNat by omega]
    exact ⟨same, by omega⟩
  next =>
    split at read
    next lower =>
      cases read
      have range := Text.toNat_of_isLower lower
      rw [digit, if_neg (by omega), if_pos (by omega),
        show 71 + (char.toNat - 71) = char.toNat by omega]
      exact ⟨same, by omega⟩
    next =>
      split at read
      next decimal =>
        cases read
        have range : 48 ≤ char.toNat ∧ char.toNat ≤ 57 := Char.isDigit_iff_toNat.mp decimal
        rw [digit, if_neg (by omega), if_neg (by omega), if_pos (by omega),
          show char.toNat + 4 - 4 = char.toNat by omega]
        exact ⟨same, by omega⟩
      next =>
        split at read
        next first =>
          cases read
          exact ⟨first.symm, by decide⟩
        next =>
          split at read
          next second =>
            cases read
            exact ⟨second.symm, by decide⟩
          next => cases read

theorem digit_inj {variant : Variant} {first second : Nat} (small : first < 64)
    (smallSecond : second < 64) : digit variant first = digit variant second ↔ first = second := by
  refine ⟨fun same => ?_, fun same => same ▸ rfl⟩
  have read := value_digit variant small
  rw [same, value_digit variant smallSecond] at read
  exact (Option.some.inj read).symm

/-- The digits come from the alphabet. -/
theorem isDigit_of_mem_encode {variant : Variant} {bytes : Bytes} {char : Char}
    (member : char ∈ encode variant bytes) : isDigit variant char = true := by
  fun_induction encode variant bytes with
  | case1 => cases member
  | case2 first =>
      simp only [List.mem_cons, List.not_mem_nil, or_false] at member
      rcases member with rfl | rfl <;> exact isDigit_digit variant _
  | case3 first second =>
      simp only [List.mem_cons, List.not_mem_nil, or_false] at member
      rcases member with rfl | rfl | rfl <;> exact isDigit_digit variant _
  | case4 first second third rest ih =>
      simp only [List.mem_cons] at member
      rcases member with rfl | rfl | rfl | rfl | later
      · exact isDigit_digit variant _
      · exact isDigit_digit variant _
      · exact isDigit_digit variant _
      · exact isDigit_digit variant _
      · exact ih later

theorem toNat_byte {high low : Nat} (small : high + low < 256) :
    (byte high low).toNat = high + low := by
  rw [byte, UInt8.toNat_ofNat']
  exact Nat.mod_eq_of_lt small

theorem byte_eq {high low : Nat} (byte : UInt8) (same : high + low = byte.toNat) :
    Base64.byte high low = byte := by
  rw [Base64.byte, same]
  exact UInt8.ofNat_toNat

/-- What is encoded is decoded. -/
theorem decode_encode (variant : Variant) (bytes : Bytes) :
    decode variant (encode variant bytes) = some bytes := by
  fun_induction encode variant bytes with
  | case1 => rfl
  | case2 first =>
      have range := first.toNat_lt
      simp only [decode, value_digit variant (show first.toNat / 4 < 64 by omega),
        value_digit variant (show first.toNat % 4 * 16 < 64 by omega), Option.bind_eq_bind,
        Option.bind_some]
      rw [byte_eq first (by omega)]
  | case3 first second =>
      have range := first.toNat_lt
      have rangeSecond := second.toNat_lt
      simp only [decode, value_digit variant (show first.toNat / 4 < 64 by omega),
        value_digit variant (show first.toNat % 4 * 16 + second.toNat / 16 < 64 by omega),
        value_digit variant (show second.toNat % 16 * 4 < 64 by omega), Option.bind_eq_bind,
        Option.bind_some]
      rw [byte_eq first (by omega), byte_eq second (by omega)]
  | case4 first second third rest ih =>
      have range := first.toNat_lt
      have rangeSecond := second.toNat_lt
      have rangeThird := third.toNat_lt
      simp only [decode, value_digit variant (show first.toNat / 4 < 64 by omega),
        value_digit variant (show first.toNat % 4 * 16 + second.toNat / 16 < 64 by omega),
        value_digit variant (show second.toNat % 16 * 4 + third.toNat / 64 < 64 by omega),
        value_digit variant (show third.toNat % 64 < 64 by omega), ih, Option.bind_eq_bind,
        Option.bind_some]
      rw [byte_eq first (by omega), byte_eq second (by omega),
        byte_eq third (by omega)]

theorem length_of_decode {variant : Variant} {digits : Text} {bytes : Bytes}
    (decoded : decode variant digits = some bytes) : bytes.length = digits.length * 3 / 4 := by
  fun_induction decode variant digits generalizing bytes with
  | case1 =>
      cases decoded
      rfl
  | case2 => cases decoded
  | case3 first second =>
      simp only [Option.bind_eq_bind, Option.bind_eq_some_iff] at decoded
      obtain ⟨_, _, _, _, same⟩ := decoded
      cases same
      simp
  | case4 first second third =>
      simp only [Option.bind_eq_bind, Option.bind_eq_some_iff] at decoded
      obtain ⟨_, _, _, _, _, _, same⟩ := decoded
      cases same
      simp
  | case5 first second third fourth rest ih =>
      simp only [Option.bind_eq_bind, Option.bind_eq_some_iff] at decoded
      obtain ⟨_, _, _, _, _, _, _, _, later, decoded, same⟩ := decoded
      cases same
      simp only [List.length_cons, ih decoded]
      omega

/-- Of the digits that are left, only whole bytes are read. -/
theorem decode_take (variant : Variant) (bytes : Bytes) {count : Nat}
    (short : count < (encode variant bytes).length) :
    decode variant ((encode variant bytes).take count) = none ∨
      ∃ read, read < bytes.length ∧
        decode variant ((encode variant bytes).take count) = some (bytes.take read) := by
  fun_induction encode variant bytes generalizing count with
  | case1 => cases short
  | case2 first =>
      match count, short with
      | 0, _ => exact Or.inr ⟨0, by simp, rfl⟩
      | 1, _ => exact Or.inl rfl
  | case3 first second =>
      have range := first.toNat_lt
      have rangeSecond := second.toNat_lt
      match count, short with
      | 0, _ => exact Or.inr ⟨0, by simp, rfl⟩
      | 1, _ => exact Or.inl rfl
      | 2, _ =>
          refine Or.inr ⟨1, by simp, ?_⟩
          simp only [List.take_succ_cons, List.take_zero, decode,
            value_digit variant (show first.toNat / 4 < 64 by omega),
            value_digit variant (show first.toNat % 4 * 16 + second.toNat / 16 < 64 by omega),
            Option.bind_eq_bind, Option.bind_some]
          rw [byte_eq first (by omega)]
  | case4 first second third rest ih =>
      have range := first.toNat_lt
      have rangeSecond := second.toNat_lt
      have rangeThird := third.toNat_lt
      match count, short with
      | 0, _ => exact Or.inr ⟨0, by simp, rfl⟩
      | 1, _ => exact Or.inl rfl
      | 2, _ =>
          refine Or.inr ⟨1, by simp, ?_⟩
          simp only [List.take_succ_cons, List.take_zero, decode,
            value_digit variant (show first.toNat / 4 < 64 by omega),
            value_digit variant (show first.toNat % 4 * 16 + second.toNat / 16 < 64 by omega),
            Option.bind_eq_bind, Option.bind_some]
          rw [byte_eq first (by omega)]
      | 3, _ =>
          refine Or.inr ⟨2, by simp, ?_⟩
          simp only [List.take_succ_cons, List.take_zero, decode,
            value_digit variant (show first.toNat / 4 < 64 by omega),
            value_digit variant (show first.toNat % 4 * 16 + second.toNat / 16 < 64 by omega),
            value_digit variant (show second.toNat % 16 * 4 + third.toNat / 64 < 64 by omega),
            Option.bind_eq_bind, Option.bind_some]
          rw [byte_eq first (by omega), byte_eq second (by omega)]
      | count + 4, short =>
          rcases ih (show count < (encode variant rest).length by simpa using short) with
            refused | ⟨read, fewer, decoded⟩
          · left
            simp only [List.take_succ_cons, decode, refused, Option.bind_eq_bind,
              Option.bind_none, Option.bind_fun_none]
          · refine Or.inr ⟨read + 3, by simpa using fewer, ?_⟩
            simp only [List.take_succ_cons, decode, decoded,
              value_digit variant (show first.toNat / 4 < 64 by omega),
              value_digit variant (show first.toNat % 4 * 16 + second.toNat / 16 < 64 by omega),
              value_digit variant (show second.toNat % 16 * 4 + third.toNat / 64 < 64 by omega),
              value_digit variant (show third.toNat % 64 < 64 by omega),
              Option.bind_eq_bind, Option.bind_some]
            rw [byte_eq first (by omega), byte_eq second (by omega), byte_eq third (by omega)]

end AlienConnection.Library.Base64
