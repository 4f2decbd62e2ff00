import Mathlib.Algebra.Group.Nat.Defs
import Mathlib.Data.Int.Basic

/-!
# Decimal integers of a fixed width

Reading a signed integer of a fixed width the way the Java library does: an optional sign,
then one or more decimal digits, with a range check. Which characters count as
digits is a parameter, because the library accepts every decimal digit of
Unicode.
-/

namespace AlienConnection.Library.Decimal

/-- The value of a text of digits, continuing from a prefix already read. -/
def digitsFrom (digit : Char → Option Nat) (value : Nat) : List Char → Option Nat
  | [] => some value
  | char :: rest =>
      match digit char with
      | none => none
      | some next => digitsFrom digit (value * 10 + next) rest

def digits (digit : Char → Option Nat) : List Char → Option Nat
  | [] => none
  | text => digitsFrom digit 0 text

/-- `Integer.parseInt`. A failure stands for its `NumberFormatException`. -/
def parseInt (digit : Char → Option Nat) : List Char → Option Int
  | '-' :: rest =>
      (digits digit rest).bind (fun value => if value ≤ 2 ^ 31 then some (-(value : Int)) else none)
  | '+' :: rest =>
      (digits digit rest).bind (fun value => if value < 2 ^ 31 then some (value : Int) else none)
  | text =>
      (digits digit text).bind (fun value => if value < 2 ^ 31 then some (value : Int) else none)

def parseSigned (limit : Nat) (digit : Char → Option Nat) : List Char → Option Int
  | '-' :: rest =>
      (digits digit rest).bind (fun value => if value ≤ limit then some (-(value : Int)) else none)
  | '+' :: rest =>
      (digits digit rest).bind (fun value => if value < limit then some (value : Int) else none)
  | text =>
      (digits digit text).bind (fun value => if value < limit then some (value : Int) else none)

def parseLong := parseSigned (2 ^ 63)

theorem parseInt_eq (digit : Char → Option Nat) (text : List Char) :
    parseInt digit text = parseSigned (2 ^ 31) digit text := rfl

def ReadsAscii (digit : Char → Option Nat) : Prop :=
  ∀ value < 10, digit value.digitChar = some value

theorem digitsFrom_append (digit : Char → Option Nat) (value : Nat) (front back : List Char) :
    digitsFrom digit value (front ++ back) =
      (digitsFrom digit value front).bind (fun next => digitsFrom digit next back) := by
  induction front generalizing value with
  | nil => rfl
  | cons char rest ih =>
      simp only [List.cons_append, digitsFrom]
      cases digit char with
      | none => rfl
      | some next => exact ih _

theorem digitsFrom_toDigits {digit : Char → Option Nat} (ascii : ReadsAscii digit)
    (number : Nat) : digitsFrom digit 0 (Nat.toDigits 10 number) = some number := by
  induction number using Nat.strongRecOn with
  | ind number ih =>
      by_cases small : number < 10
      · simp [Nat.toDigits_of_lt_base small, digitsFrom, ascii number small]
      · have less : number / 10 < number := by omega
        rw [Nat.toDigits_of_base_le (by omega) (by omega), digitsFrom_append, ih _ less]
        simp only [Option.bind_some, digitsFrom, ascii (number % 10) (by omega)]
        rw [Nat.div_add_mod']

theorem isSome_of_digitsFrom {digit : Char → Option Nat} {start number : Nat} {text : List Char}
    (read : digitsFrom digit start text = some number) {char : Char} (member : char ∈ text) :
    (digit char).isSome = true := by
  induction text generalizing start with
  | nil => cases member
  | cons first rest ih =>
      rw [digitsFrom] at read
      split at read
      · cases read
      next value found =>
        rcases List.mem_cons.mp member with here | later
        · rw [here, found]
          rfl
        · exact ih read later

/-- Digits without a sign in front are read as they are. -/
theorem parseSigned_of_isDigit {limit number : Nat} {digit : Char → Option Nat} {text : List Char}
    (nonempty : text ≠ []) (isDigit : ∀ char ∈ text, char.isDigit = true)
    (read : digitsFrom digit 0 text = some number) (small : number < limit) :
    parseSigned limit digit text = some (number : Int) := by
  unfold parseSigned
  split
  next rest =>
    have sign := isDigit '-' List.mem_cons_self
    exact absurd sign (by decide)
  next rest =>
    have sign := isDigit '+' List.mem_cons_self
    exact absurd sign (by decide)
  · have plain : digits digit text = some number := by
      unfold digits
      split
      · exact absurd rfl nonempty
      · exact read
    rw [plain, Option.bind_some, if_pos small]

/-- A number that is not negative is written with its digits alone. -/
theorem exists_toDigits {value : Int} (nonneg : 0 ≤ value) :
    ∃ number : Nat, value = number ∧ (toString value).toList = Nat.toDigits 10 number := by
  obtain ⟨number, rfl⟩ := Int.eq_ofNat_of_zero_le nonneg
  exact ⟨number, rfl, String.toList_ofList⟩

/-- Digits, and a minus sign in front of a negative number. -/
theorem toList_toString (value : Int) :
    (toString value).toList = if 0 ≤ value then Nat.toDigits 10 value.natAbs
      else '-' :: Nat.toDigits 10 value.natAbs := by
  cases value with
  | ofNat number => exact String.toList_ofList
  | negSucc number => simp [Int.toString_eq_repr, Int.repr, Nat.repr]

theorem mem_toString {value : Int} {char : Char} (member : char ∈ (toString value).toList) :
    char.isDigit = true ∨ char = '-' := by
  have digit : char ∈ Nat.toDigits 10 value.natAbs → char.isDigit = true :=
    Nat.isDigit_of_mem_toDigits (by omega) (by omega)
  rw [toList_toString] at member
  split at member
  · exact Or.inl (digit member)
  · rcases List.mem_cons.mp member with sign | behind
    · exact Or.inr sign
    · exact Or.inl (digit behind)

/-- Different numbers are written differently. -/
theorem toString_injective {first second : Int}
    (same : (toString first).toList = (toString second).toList) : first = second := by
  have unsigned : ∀ {number : Nat} {rest}, Nat.toDigits 10 number ≠ '-' :: rest := by
    intro number rest starts
    have member : '-' ∈ Nat.toDigits 10 number := starts ▸ List.mem_cons_self
    exact absurd (Nat.isDigit_of_mem_toDigits (by omega) (by omega) member) (by decide)
  have digits : ∀ {number other : Nat}, Nat.toDigits 10 number = Nat.toDigits 10 other →
      number = other := by
    intro number other equal
    have read := congrArg (fun text => Nat.ofDigitChars 10 text 0) equal
    simpa only [Nat.ofDigitChars_toDigits (show 1 < 10 by decide) (Nat.le_refl 10)] using read
  rw [toList_toString, toList_toString] at same
  split at same <;> split at same
  · have absolute := digits same
    omega
  · exact absurd same unsigned
  · exact absurd same.symm unsigned
  · have absolute := digits (List.cons.inj same).2
    omega

/-- A number that is written out is read back. -/
theorem parseInt_toDigits {digit : Char → Option Nat} (ascii : ReadsAscii digit)
    {number : Nat} (small : number < 2 ^ 31) :
    parseInt digit (Nat.toDigits 10 number) = some (number : Int) := by
  rw [parseInt_eq]
  refine parseSigned_of_isDigit Nat.toDigits_ne_nil ?_ (digitsFrom_toDigits ascii number) small
  intro char member
  exact Nat.isDigit_of_mem_toDigits (by omega) (by omega) member

/-! ## The length of a number -/

theorem digitsFrom_lt {digit : Char → Option Nat}
    (base : ∀ char value, digit char = some value → value < 10) {start number : Nat}
    {text : List Char} (read : digitsFrom digit start text = some number) :
    number < (start + 1) * 10 ^ text.length := by
  induction text generalizing start with
  | nil =>
      cases read
      simp
  | cons char rest ih =>
      rw [digitsFrom] at read
      split at read
      · cases read
      next value found =>
        have small := base char value found
        calc number < (start * 10 + value + 1) * 10 ^ rest.length := ih read
          _ ≤ ((start + 1) * 10) * 10 ^ rest.length := Nat.mul_le_mul_right _ (by omega)
          _ = (start + 1) * 10 ^ (rest.length + 1) := by
            rw [Nat.pow_succ', Nat.mul_assoc]

theorem digits_lt {digit : Char → Option Nat}
    (base : ∀ char value, digit char = some value → value < 10) {number : Nat} {text : List Char}
    (read : digits digit text = some number) : number < 10 ^ text.length := by
  cases text with
  | nil => cases read
  | cons char rest =>
      have bound := digitsFrom_lt base (read : digitsFrom digit 0 (char :: rest) = some number)
      rwa [Nat.zero_add, Nat.one_mul] at bound

/-- A number is read from at least as many characters as it is written with. -/
theorem length_toDigits_le {digit : Char → Option Nat}
    (base : ∀ char value, digit char = some value → value < 10) {number : Nat} {text : List Char}
    (read : parseInt digit text = some (number : Int)) (positive : 0 < number) :
    (Nat.toDigits 10 number).length ≤ text.length := by
  have bound : text ≠ [] ∧ number < 10 ^ text.length := by
    unfold parseInt at read
    split at read
    next rest =>
      obtain ⟨value, _, made⟩ := Option.bind_eq_some_iff.mp read
      split at made
      · have same := Option.some.inj made
        omega
      · cases made
    next rest =>
      obtain ⟨value, found, made⟩ := Option.bind_eq_some_iff.mp read
      split at made
      · have same := Option.some.inj made
        have less := digits_lt base found
        refine ⟨List.cons_ne_nil _ _, ?_⟩
        rw [List.length_cons, Nat.pow_succ]
        omega
      · cases made
    next =>
      obtain ⟨value, found, made⟩ := Option.bind_eq_some_iff.mp read
      split at made
      · have same := Option.some.inj made
        have less := digits_lt base found
        refine ⟨?_, by omega⟩
        rintro rfl
        cases found
      · cases made
  exact (Nat.length_toDigits_le_iff (by decide) (List.length_pos_iff.mpr bound.1)).mpr bound.2

end AlienConnection.Library.Decimal
