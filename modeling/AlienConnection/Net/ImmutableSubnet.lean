import AlienConnection.Net.Subnet

/-!
# Matching addresses against a subnet

`toImmutable` clears what follows the prefix of an address, and `matches` compares
another address with the result: whole bytes first, then the part of a byte that is
left. Both index into arrays of signed bytes and build a mask for the partial byte
from a shifted one. An index outside of an array is `none`.
-/

namespace AlienConnection.Net

namespace Subnet

/-- `shl` of 32-bit numbers, which takes the last five bits of the distance. -/
def shl (value : BitVec 32) (distance : Int) : BitVec 32 :=
  value <<< (distance % 32).toNat

def maskByte (byte : BitVec 8) (distance : Int) : BitVec 8 :=
  (byte.signExtend 32 &&& -(shl 1 distance)).setWidth 8

structure Immutable where
  a : List (BitVec 8)
  prefixSize : Nat

def Immutable.matchesFrom (self : Immutable) (b : List (BitVec 8)) (i : Nat) : Option Bool :=
  if i * 8 < self.prefixSize ∧ i * 8 + 8 ≤ self.prefixSize then do
    let own ← self.a[i]?
    let other ← b[i]?
    if own ≠ other then return false
    matchesFrom self b (i + 1)
  else if i * 8 = self.prefixSize then some true
  else do
    let own ← self.a[i]?
    let other ← b[i]?
    return own == maskByte other (i * 8 + 8 - self.prefixSize)
  termination_by self.prefixSize - i * 8

def Immutable.matches (self : Immutable) (b : List (BitVec 8)) : Option Bool :=
  if self.a.length ≠ b.length then some false
  else self.matchesFrom b 0

def clearFrom (it : List (BitVec 8)) (i : Nat) : List (BitVec 8) :=
  if i < it.length then clearFrom (it.set i 0) (i + 1) else it
  termination_by it.length - i

def toImmutable (subnet : Subnet) : Option Immutable :=
  let it := subnet.address.bytes
  let i := subnet.prefixSize / 8
  if 0 < subnet.prefixSize % 8 then do
    let byte ← it[i]?
    return ⟨clearFrom (it.set i (maskByte byte (i * 8 + 8 - subnet.prefixSize))) (i + 1),
      subnet.prefixSize⟩
  else some ⟨clearFrom it i, subnet.prefixSize⟩

/-! ## Bits -/

def byteBits (byte : BitVec 8) : List Bool :=
  (List.range 8).map byte.getMsbD

def bits (bytes : List (BitVec 8)) : List Bool :=
  bytes.flatMap byteBits

@[simp]
theorem length_byteBits (byte : BitVec 8) : (byteBits byte).length = 8 := rfl

theorem take_byteBits_eq_iff {first second : BitVec 8} {count : Nat} (bound : count ≤ 8) :
    (byteBits first).take count = (byteBits second).take count ↔
      ∀ position < count, first.getMsbD position = second.getMsbD position := by
  have range : (List.range 8).take count = List.range count := by
    rw [List.take_range, Nat.min_eq_left bound]
  simp only [byteBits, ← List.map_take, range, List.map_inj_left, List.mem_range]

theorem byteBits_injective {first second : BitVec 8} (same : byteBits first = byteBits second) :
    first = second := by
  apply BitVec.eq_of_getMsbD_eq
  exact (take_byteBits_eq_iff (Nat.le_refl 8)).mp (congrArg (List.take 8) same)

/-- A prefix of at least a byte compares the first byte and the rest. -/
theorem take_bits_cons_of_le {first second : BitVec 8} {rest tail : List (BitVec 8)}
    {count : Nat} (whole : 8 ≤ count) :
    (bits (first :: rest)).take count = (bits (second :: tail)).take count ↔
      first = second ∧ (bits rest).take (count - 8) = (bits tail).take (count - 8) := by
  have split (byte : BitVec 8) (bytes : List (BitVec 8)) :
      (bits (byte :: bytes)).take count = byteBits byte ++ (bits bytes).take (count - 8) := by
    simp only [bits, List.flatMap_cons, List.take_append, length_byteBits]
    rw [List.take_of_length_le (by simpa using whole)]
  rw [split, split]
  constructor
  · intro same
    obtain ⟨here, behind⟩ := List.append_inj same rfl
    exact ⟨byteBits_injective here, behind⟩
  · rintro ⟨rfl, behind⟩
    rw [behind]

theorem take_bits_cons_of_lt {first second : BitVec 8} {rest tail : List (BitVec 8)}
    {count : Nat} (partly : count ≤ 8) :
    (bits (first :: rest)).take count = (bits (second :: tail)).take count ↔
      ∀ position < count, first.getMsbD position = second.getMsbD position := by
  have inside (byte : BitVec 8) (bytes : List (BitVec 8)) :
      (bits (byte :: bytes)).take count = (byteBits byte).take count := by
    rw [bits, List.flatMap_cons, List.take_append_of_le_length (by simpa using partly)]
  rw [inside, inside, take_byteBits_eq_iff partly]

/-! ## The mask -/

/-- The mask of a partial byte keeps the bits from its distance on. -/
theorem getLsbD_mask : ∀ distance position : Fin 8,
    (-(shl 1 (distance.val : Int))).getLsbD position = decide (distance ≤ position) := by
  decide

theorem getMsbD_maskByte (byte : BitVec 8) {count position : Nat} (low : 0 < count)
    (high : count < 8) (inside : position < 8) :
    (maskByte byte ((8 - count : Nat) : Int)).getMsbD position =
      (byte.getMsbD position && decide (position < count)) := by
  have mask := getLsbD_mask ⟨8 - count, by omega⟩ ⟨7 - position, by omega⟩
  have kept : decide (8 - count ≤ 7 - position) = decide (position < count) :=
    decide_eq_decide.mpr (by omega)
  simp only [Fin.mk_le_mk, kept] at mask
  have narrow : 7 - position < 8 := by omega
  have wide : 7 - position < 32 := by omega
  simp only [maskByte, BitVec.getMsbD, BitVec.getLsbD_setWidth, BitVec.getLsbD_and,
    BitVec.getLsbD_signExtend, inside, narrow, wide, decide_true, Bool.true_and, if_pos]
  rw [mask]

/-- Masked bytes are equal when the bits before the mask are. -/
theorem maskByte_eq_iff {first second : BitVec 8} {count : Nat} (low : 0 < count)
    (high : count < 8) :
    maskByte first ((8 - count : Nat) : Int) = maskByte second ((8 - count : Nat) : Int) ↔
      ∀ position < count, first.getMsbD position = second.getMsbD position := by
  constructor
  · intro same position before
    have bit := congrArg (fun byte => byte.getMsbD position) same
    simpa [getMsbD_maskByte _ low high (Nat.lt_trans before high), before] using bit
  · intro same
    apply BitVec.eq_of_getMsbD_eq
    intro position inside
    rw [getMsbD_maskByte _ low high inside, getMsbD_maskByte _ low high inside]
    by_cases before : position < count
    · rw [same position before]
    · simp [before]

/-! ## Normalisation -/

theorem length_clearFrom (it : List (BitVec 8)) (i : Nat) :
    (clearFrom it i).length = it.length := by
  induction it, i using clearFrom.induct with
  | case1 it i inside ih =>
      rw [clearFrom, if_pos inside, ih, List.length_set]
  | case2 it i outside =>
      rw [clearFrom, if_neg outside]

theorem getElem?_clearFrom (it : List (BitVec 8)) {i position : Nat} (before : position < i) :
    (clearFrom it i)[position]? = it[position]? := by
  induction it, i using clearFrom.induct with
  | case1 it i inside ih =>
      rw [clearFrom, if_pos inside, ih (Nat.lt_succ_of_lt before),
        List.getElem?_set_ne (Nat.ne_of_gt before)]
  | case2 it i outside =>
      rw [clearFrom, if_neg outside]

/-- What `matches` needs of the array: whole bytes as they were, then a masked one. -/
structure Normalised (bytes : List (BitVec 8)) (immutable : Immutable) : Prop where
  size : immutable.a.length = bytes.length
  whole : ∀ i, i * 8 + 8 ≤ immutable.prefixSize → immutable.a[i]? = bytes[i]?
  partly : ∀ i, i * 8 < immutable.prefixSize → immutable.prefixSize < i * 8 + 8 →
    immutable.a[i]? = bytes[i]?.map fun byte => maskByte byte (i * 8 + 8 - immutable.prefixSize)

theorem toImmutable_spec (subnet : Subnet) :
    ∃ immutable, subnet.toImmutable = some immutable ∧
      immutable.prefixSize = subnet.prefixSize ∧
      Normalised subnet.address.bytes immutable := by
  have inRange := subnet.inRange
  rw [toImmutable]
  by_cases rest : 0 < subnet.prefixSize % 8
  · have inside : subnet.prefixSize / 8 < subnet.address.bytes.length := by omega
    rw [if_pos rest, List.getElem?_eq_getElem inside]
    refine ⟨_, rfl, rfl, ?_, ?_, ?_⟩
    · rw [length_clearFrom, List.length_set]
    · intro i whole
      dsimp only at whole ⊢
      rw [getElem?_clearFrom _ (by omega), List.getElem?_set_ne (by omega)]
    · intro i low high
      dsimp only at low high ⊢
      obtain rfl : i = subnet.prefixSize / 8 := by omega
      rw [getElem?_clearFrom _ (Nat.lt_succ_self _), List.getElem?_set_self inside,
        List.getElem?_eq_getElem inside, Option.map_some]
  · rw [if_neg rest]
    refine ⟨_, rfl, rfl, length_clearFrom _ _, ?_, ?_⟩
    · intro i whole
      exact getElem?_clearFrom _ (by dsimp only at whole; omega)
    · intro i low high
      dsimp only at low high
      omega

/-! ## Matching -/

/-- From an index on, the loop compares the bits that are left of the prefix. -/
theorem matchesFrom_eq {immutable : Immutable} {bytes b : List (BitVec 8)}
    (normalised : Normalised bytes immutable)
    (inRange : immutable.prefixSize ≤ 8 * bytes.length) (size : b.length = bytes.length)
    (i : Nat) (reached : i * 8 ≤ immutable.prefixSize) :
    immutable.matchesFrom b i =
      some (decide ((bits (b.drop i)).take (immutable.prefixSize - i * 8) =
        (bits (bytes.drop i)).take (immutable.prefixSize - i * 8))) := by
  induction i using Immutable.matchesFrom.induct immutable with
  | case1 i more ih =>
      have ownBound : i < bytes.length := by omega
      have otherBound : i < b.length := by omega
      have next : immutable.prefixSize - i * 8 - 8 = immutable.prefixSize - (i + 1) * 8 := by
        omega
      rw [Immutable.matchesFrom, if_pos more, normalised.whole i more.2,
        List.getElem?_eq_getElem ownBound, List.getElem?_eq_getElem otherBound,
        List.drop_eq_getElem_cons ownBound, List.drop_eq_getElem_cons otherBound]
      simp only [take_bits_cons_of_le (show 8 ≤ immutable.prefixSize - i * 8 by omega), next]
      by_cases same : bytes[i] = b[i]
      · simp [same, ih (by omega)]
      · simp [same, Ne.symm same]
  | case2 i stopped full =>
      rw [Immutable.matchesFrom, if_neg stopped, if_pos full]
      simp [full]
  | case3 i stopped notFull =>
      have ownBound : i < bytes.length := by omega
      have otherBound : i < b.length := by omega
      have low : 0 < immutable.prefixSize - i * 8 := by omega
      have high : immutable.prefixSize - i * 8 < 8 := by omega
      have distance : (i * 8 + 8 - immutable.prefixSize : Int) =
          ((8 - (immutable.prefixSize - i * 8) : Nat) : Int) := by omega
      rw [Immutable.matchesFrom, if_neg stopped, if_neg notFull,
        normalised.partly i (by omega) (by omega),
        List.getElem?_eq_getElem ownBound, List.getElem?_eq_getElem otherBound,
        List.drop_eq_getElem_cons ownBound, List.drop_eq_getElem_cons otherBound]
      simp only [take_bits_cons_of_lt (Nat.le_of_lt high), distance, Option.map_some,
        Option.bind_eq_bind, Option.bind_some, Option.pure_def, beq_eq_decide, Option.some.injEq]
      rw [decide_eq_decide, maskByte_eq_iff low high]
      exact ⟨fun same position before => (same position before).symm,
        fun same position before => (same position before).symm⟩

/-- A subnet matches the addresses of its size with the bits of its prefix, and both
functions stay inside of their arrays. -/
theorem matches_toImmutable (subnet : Subnet) (b : List (BitVec 8)) :
    (do (← subnet.toImmutable).matches b) =
      some (decide (b.length = subnet.address.bytes.length ∧
        (bits b).take subnet.prefixSize = (bits subnet.address.bytes).take subnet.prefixSize)) := by
  obtain ⟨immutable, made, same, normalised⟩ := toImmutable_spec subnet
  rw [made, Option.bind_eq_bind, Option.bind_some, Immutable.matches, normalised.size]
  by_cases size : b.length = subnet.address.bytes.length
  · have inRange : immutable.prefixSize ≤ 8 * subnet.address.bytes.length := by
      rw [same]
      exact subnet.inRange
    rw [if_neg (not_not.mpr size.symm), matchesFrom_eq normalised inRange size 0 (by omega)]
    simp [size, same]
  · rw [if_pos (Ne.symm size)]
    simp [size]

end Subnet

end AlienConnection.Net
