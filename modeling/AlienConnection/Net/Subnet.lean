import AlienConnection.Library.Decimal
import AlienConnection.Library.Text
import Mathlib.Data.List.Lex

/-!
# Subnets

An address of four or sixteen bytes with a prefix length: reading, writing and
comparing. Parsing a numeric address and writing one belong to the platform.
-/

namespace AlienConnection.Net

open Library

/-- An IPv4 or IPv6 address. Two addresses are equal when their bytes are. -/
structure Address where
  bytes : List (BitVec 8)
  size : bytes.length = 4 ∨ bytes.length = 16
  deriving DecidableEq

/-- What subnets use of the platform. -/
structure Numerics where
  parseNumericAddress : Text → Option Address
  hostAddress : Address → Text
  digit : Char → Option Nat

structure Subnet where
  address : Address
  prefixSize : Nat
  inRange : prefixSize ≤ 8 * address.bytes.length
  deriving DecidableEq

namespace Subnet

def addressLength (address : Address) : Nat := 8 * address.bytes.length

/-- `fromString` with the default `lengthCheck`, which checks nothing. -/
def fromString (numerics : Numerics) (value : Text) : Option Subnet :=
  let parts := Text.cut '/' value
  match numerics.parseNumericAddress parts.1 with
  | none => none
  | some addr =>
      match parts.2 with
      | some text =>
          match Decimal.parseInt numerics.digit text with
          | none => none
          | some prefixSize =>
              if range : 0 ≤ prefixSize ∧ prefixSize ≤ addressLength addr then
                some ⟨addr, prefixSize.toNat, by unfold addressLength at range; omega⟩
              else none
      | none => some ⟨addr, addressLength addr, Nat.le_refl _⟩

def toString (numerics : Numerics) (subnet : Subnet) : Text :=
  if subnet.prefixSize = addressLength subnet.address then numerics.hostAddress subnet.address
  else numerics.hostAddress subnet.address ++ '/' :: Nat.toDigits 10 subnet.prefixSize

/-! ## The order -/

/-- The first difference of two byte arrays of one size, without signs. -/
def compareBytes : List (BitVec 8) → List (BitVec 8) → Ordering
  | first :: rest, second :: tail =>
      (compare first.toNat second.toNat).then (compareBytes rest tail)
  | _, _ => .eq

def compareTo (first second : Subnet) : Ordering :=
  (compare first.address.bytes.length second.address.bytes.length).then
    ((compareBytes first.address.bytes second.address.bytes).then
      (compare first.prefixSize second.prefixSize))

/-- Size, bytes and prefix length; `compareTo` is their lexicographic order. -/
def sortKey (subnet : Subnet) : List Nat :=
  subnet.address.bytes.length :: (subnet.address.bytes.map BitVec.toNat ++ [subnet.prefixSize])

theorem sortKey_injective : Function.Injective sortKey := by
  intro first second same
  obtain ⟨⟨firstBytes, firstSize⟩, firstPrefix, firstRange⟩ := first
  obtain ⟨⟨secondBytes, secondSize⟩, secondPrefix, secondRange⟩ := second
  obtain ⟨_, rest⟩ := List.cons.inj same
  obtain ⟨bytes, prefixes⟩ := List.append_inj' rest rfl
  have sameBytes : firstBytes = secondBytes :=
    List.map_injective_iff.mpr (fun _ _ => BitVec.eq_of_toNat_eq) bytes
  cases sameBytes
  cases List.singleton_inj.mp prefixes
  rfl

theorem compare_then_eq_lt_iff {first second : Nat} {next : Ordering} :
    (compare first second).then next = .lt ↔
      first < second ∨ (first = second ∧ next = .lt) := by
  rcases Nat.lt_trichotomy first second with less | equal | greater
  · simp [Nat.compare_eq_lt.mpr less, less]
  · simp [equal]
  · have notLess : ¬ first < second := by omega
    have notEqual : ¬ first = second := by omega
    simp [Nat.compare_eq_gt.mpr greater, notLess, notEqual]

theorem compareBytes_then_eq_lt_iff (first second : List (BitVec 8)) {low high : Nat}
    (size : first.length = second.length) :
    (compareBytes first second).then (compare low high) = .lt ↔
      first.map BitVec.toNat ++ [low] < second.map BitVec.toNat ++ [high] := by
  induction first generalizing second with
  | nil =>
      cases second with
      | nil => simp [compareBytes, Nat.compare_eq_lt, List.cons_lt_cons_iff]
      | cons byte tail => cases size
  | cons byte rest ih =>
      cases second with
      | nil => cases size
      | cons other tail =>
          have sizes : rest.length = tail.length := Nat.succ.inj size
          rw [compareBytes, Ordering.then_assoc, compare_then_eq_lt_iff, ih tail sizes]
          simp only [List.map_cons, List.cons_append, List.cons_lt_cons_iff]

/-- The order of the sort key is that of `compareTo`. -/
theorem compareTo_eq_lt_iff (first second : Subnet) :
    compareTo first second = .lt ↔ sortKey first < sortKey second := by
  rw [compareTo, compare_then_eq_lt_iff, sortKey, sortKey, List.cons_lt_cons_iff]
  refine or_congr_right (and_congr_right ?_)
  intro size
  exact compareBytes_then_eq_lt_iff _ _ size

/-! ## Reading back -/

/-- The text of an address, as far as reading it back goes: it is the text of a numeric
address, without the characters that mean something else in a list. -/
structure Readable (numerics : Numerics) (blank : Char → Bool) (address : Address) : Prop where
  parses : numerics.parseNumericAddress (numerics.hostAddress address) = some address
  nonempty : numerics.hostAddress address ≠ []
  plain : ∀ char ∈ numerics.hostAddress address,
    char ≠ '/' ∧ char ≠ '#' ∧ char ≠ '[' ∧ blank char = false

theorem fromString_toString {numerics : Numerics} {blank : Char → Bool} {subnet : Subnet}
    (ascii : Decimal.ReadsAscii numerics.digit)
    (readable : Readable numerics blank subnet.address) :
    fromString numerics (toString numerics subnet) = some subnet := by
  have noSlash : '/' ∉ numerics.hostAddress subnet.address := fun member =>
    (readable.plain '/' member).1 rfl
  obtain ⟨address, prefixSize, inRange⟩ := subnet
  dsimp only at readable noSlash
  rw [toString]
  dsimp only
  split
  next full =>
    rw [fromString, Text.cut_of_not_mem noSlash]
    dsimp only
    rw [readable.parses]
    simp only [full]
  next partly =>
    have bound : prefixSize < 2 ^ 31 := by
      rcases address.size with size | size <;> omega
    rw [fromString, Text.cut_append _ noSlash]
    dsimp only
    rw [readable.parses]
    dsimp only
    rw [Decimal.parseInt_toDigits ascii bound]
    have range : (0 : Int) ≤ prefixSize ∧ (prefixSize : Int) ≤ addressLength address := by
      unfold addressLength
      omega
    simp only [dif_pos range, Int.toNat_natCast]

/-- The text of a subnet is an entry of its own: it starts neither a section nor a
comment, and has no blanks. -/
theorem mem_toString {numerics : Numerics} {blank : Char → Bool} {subnet : Subnet}
    (digits : ∀ char : Char, char.isDigit = true → blank char = false)
    (slash : blank '/' = false) (readable : Readable numerics blank subnet.address)
    {char : Char} (member : char ∈ toString numerics subnet) :
    char ≠ '#' ∧ char ≠ '[' ∧ blank char = false := by
  have ofAddress : char ∈ numerics.hostAddress subnet.address →
      char ≠ '#' ∧ char ≠ '[' ∧ blank char = false := fun inside =>
    (readable.plain char inside).2
  rw [toString] at member
  split at member
  · exact ofAddress member
  · rcases List.mem_append.mp member with inside | behind
    · exact ofAddress inside
    · rcases List.mem_cons.mp behind with here | digit
      · rw [here]
        exact ⟨by decide, by decide, slash⟩
      · have isDigit := Nat.isDigit_of_mem_toDigits (by omega) (by omega) digit
        refine ⟨?_, ?_, digits char isDigit⟩
        · rintro rfl
          exact absurd isDigit (by decide)
        · rintro rfl
          exact absurd isDigit (by decide)

theorem toString_ne_nil {numerics : Numerics} {blank : Char → Bool} {subnet : Subnet}
    (readable : Readable numerics blank subnet.address) : toString numerics subnet ≠ [] := by
  rw [toString]
  split
  · exact readable.nonempty
  · exact List.append_ne_nil_of_left_ne_nil readable.nonempty _

end Subnet

end AlienConnection.Net
