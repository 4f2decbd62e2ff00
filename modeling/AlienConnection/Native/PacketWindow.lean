import Mathlib.Data.List.Basic
import AlienConnection.Library.Machine
import AlienConnection.Library.SlidingWindow

/-!
# The packet window of the native client

`packet_window.rs` decides which packet of a UDP session is new. It keeps the highest
packet id and a ring of 128 blocks of 64 bits, and never compares an id with the ids
accepted before. This module relates it to the plain filter that remembers every id.
-/

namespace AlienConnection.Native

open AlienConnection.Library AlienConnection.Library.SlidingWindow

def blockBitLog : UInt64 := 6
def blockBits : UInt64 := 1 <<< blockBitLog
def ringBlocks : UInt64 := (1 : UInt64) <<< (7 : UInt64)
def windowSize : UInt64 := (ringBlocks - 1) * blockBits
def blockMask : UInt64 := ringBlocks - 1
def bitMask : UInt64 := blockBits - 1

abbrev PacketRing := Vector UInt64 128

structure PacketWindowFilter where
  lastPacketId : UInt64
  packetRing : PacketRing
  deriving DecidableEq, Repr

theorem toNat_and_blockMask (block : UInt64) : (block &&& blockMask).toNat = block.toNat % 128 := by
  rw [UInt64.toNat_and]
  exact Nat.and_two_pow_sub_one_eq_mod block.toNat 7

def slot (block : UInt64) : Fin 128 :=
  ⟨(block &&& blockMask).toNat, by
    rw [toNat_and_blockMask]
    exact Nat.mod_lt _ (by decide)⟩

namespace PacketRing

def clearAhead (ring : PacketRing) (current diff : UInt64) : PacketRing :=
  (List.range diff.toNat).foldl
    (fun ring d => ring.set (slot (current + UInt64.ofNat (d + 1))) 0) ring

end PacketRing

namespace PacketWindowFilter

def new : PacketWindowFilter := ⟨0, Vector.replicate 128 0⟩

/-- Only the first block is cleared. -/
def reset (filter : PacketWindowFilter) : PacketWindowFilter :=
  ⟨0, filter.packetRing.set 0 0⟩

/-- How many blocks the loop clears: all of the ring if the window moves further than that. -/
def blocksAhead (filter : PacketWindowFilter) (packetId : UInt64) : UInt64 :=
  let indexBlock := packetId >>> blockBitLog
  let current := filter.lastPacketId >>> blockBitLog
  let diff := indexBlock - current
  if diff > ringBlocks then ringBlocks else diff

def moveForward (filter : PacketWindowFilter) (packetId : UInt64) : PacketWindowFilter :=
  ⟨packetId, filter.packetRing.clearAhead (filter.lastPacketId >>> blockBitLog)
    (filter.blocksAhead packetId)⟩

def checkAndSet (filter : PacketWindowFilter) (packetId : UInt64) : Bool × PacketWindowFilter :=
  let place := slot (packetId >>> blockBitLog)
  let old := filter.packetRing.get place
  let new := old ||| 1 <<< (packetId &&& bitMask)
  (old != new, { filter with packetRing := filter.packetRing.set place new })

def validatePacketId (filter : PacketWindowFilter) (packetId limit : UInt64) :
    Bool × PacketWindowFilter :=
  if packetId ≥ limit then (false, filter)
  else if packetId > filter.lastPacketId then (filter.moveForward packetId).checkAndSet packetId
  else if filter.lastPacketId - packetId > windowSize then (false, filter)
  else filter.checkAndSet packetId

end PacketWindowFilter

/-! ## Numbers and bits -/

theorem toNat_block (packetId : UInt64) :
    (packetId >>> blockBitLog).toNat = packetId.toNat / 64 := by
  rw [UInt64.toNat_shiftRight]
  exact Nat.shiftRight_eq_div_pow packetId.toNat 6

theorem toNat_offset (packetId : UInt64) : (packetId &&& bitMask).toNat = packetId.toNat % 64 := by
  rw [UInt64.toNat_and]
  exact Nat.and_two_pow_sub_one_eq_mod packetId.toNat 6

theorem val_slot (block : UInt64) : (slot block).val = block.toNat % 128 :=
  toNat_and_blockMask block

namespace PacketRing

def bit (ring : PacketRing) (slot offset : Nat) : Bool :=
  (ring[slot]?.getD 0).toBitVec.getLsbD offset

theorem bit_set (ring : PacketRing) (place : Fin 128) (word : UInt64) (slot offset : Nat) :
    bit (ring.set place word) slot offset =
      if place.val = slot then word.toBitVec.getLsbD offset else bit ring slot offset := by
  unfold bit
  rw [Vector.getElem?_set]
  split <;> rfl

theorem bit_get (ring : PacketRing) (place : Fin 128) (offset : Nat) :
    bit ring place offset = (ring.get place).toBitVec.getLsbD offset := by
  unfold bit
  rw [Vector.getElem?_eq_getElem place.isLt]
  rfl

/-- What the loop leaves of the ring after some of its rounds. -/
theorem bit_clearAhead (ring : PacketRing) {current diff : UInt64}
    (fits : current.toNat + diff.toNat < 2 ^ 64) (slot offset : Nat) :
    bit (ring.clearAhead current diff) slot offset = true ↔ bit ring slot offset = true ∧
      ∀ steps, 0 < steps → steps ≤ diff.toNat → slot ≠ (current.toNat + steps) % 128 := by
  unfold clearAhead
  generalize diff.toNat = rounds at fits ⊢
  induction rounds with
  | zero =>
      simp only [List.range_zero, List.foldl_nil, iff_self_and]
      intro _ steps positive bounded
      omega
  | succ rounds ih =>
      have place : (Native.slot (current + UInt64.ofNat (rounds + 1))).val =
          (current.toNat + (rounds + 1)) % 128 := by
        rw [val_slot, UInt64.toNat_add, UInt64.toNat_ofNat']
        omega
      rw [List.range_succ, List.foldl_append, List.foldl_cons, List.foldl_nil, bit_set, place]
      split
      · rename_i same
        simp only [UInt64.toBitVec_zero, BitVec.getLsbD_zero, Bool.false_eq_true, false_iff,
          not_and]
        intro _ spared
        exact spared (rounds + 1) (by omega) (by omega) same.symm
      · rename_i other
        rw [ih (by omega)]
        constructor
        · rintro ⟨set, spared⟩
          refine ⟨set, ?_⟩
          intro steps positive bounded
          rcases Nat.lt_or_eq_of_le bounded with less | rfl
          · exact spared steps positive (by omega)
          · exact fun same => other same.symm
        · rintro ⟨set, spared⟩
          exact ⟨set, fun steps positive bounded => spared steps positive (by omega)⟩

end PacketRing

/-! ## One validation -/

theorem getLsbD_mark (word packetId : UInt64) (offset : Nat) :
    (word ||| 1 <<< (packetId &&& bitMask)).toBitVec.getLsbD offset = true ↔
      word.toBitVec.getLsbD offset = true ∨ offset = packetId.toNat % 64 := by
  have place : ((packetId &&& bitMask).toBitVec % 64).toNat = packetId.toNat % 64 := by
    have bounded : (packetId &&& bitMask).toBitVec.toNat = packetId.toNat % 64 :=
      toNat_offset packetId
    rw [BitVec.toNat_umod, bounded]
    exact Nat.mod_mod _ _
  have one (index : Nat) : (UInt64.toBitVec 1).getLsbD index = decide (index = 0) :=
    BitVec.getLsbD_one.trans (by simp)
  rw [UInt64.toBitVec_or, BitVec.getLsbD_or, Bool.or_eq_true, UInt64.toBitVec_shiftLeft,
    BitVec.shiftLeft_eq', BitVec.getLsbD_shiftLeft, place, one]
  simp only [Bool.and_eq_true, Bool.not_eq_true', decide_eq_true_eq, decide_eq_false_iff_not]
  apply or_congr_right
  have bounded := Nat.mod_lt packetId.toNat (by decide : 64 > 0)
  omega

namespace PacketWindowFilter

/-- The bit of an id that is in the window tells whether it has been accepted, and is set. -/
theorem checkAndSet_spec {filter : PacketWindowFilter} {accepted : List Nat} {packetId : UInt64}
    (held : Holds 64 128 filter.packetRing.bit (filter.lastPacketId.toNat / 64) accepted)
    (reached : packetId.toNat ≤ filter.lastPacketId.toNat)
    (recent : filter.lastPacketId.toNat ≤ packetId.toNat + 8128) :
    (filter.checkAndSet packetId).1 = decide (packetId.toNat ∉ accepted) ∧
      (filter.checkAndSet packetId).2.lastPacketId = filter.lastPacketId ∧
      Holds 64 128 (filter.checkAndSet packetId).2.packetRing.bit
        (filter.lastPacketId.toNat / 64) (packetId.toNat :: accepted) := by
  have split : 64 * (packetId.toNat / 64) + packetId.toNat % 64 = packetId.toNat :=
    Nat.div_add_mod _ _
  have inside : packetId.toNat % 64 < 64 := Nat.mod_lt _ (by decide)
  have place : (slot (packetId >>> blockBitLog)).val = packetId.toNat / 64 % 128 := by
    rw [val_slot, toNat_block]
  have known := held (packetId.toNat / 64) (packetId.toNat % 64) (by omega) (by omega) inside
  rw [split, ← place, PacketRing.bit_get] at known
  refine ⟨?_, rfl, ?_⟩
  · rw [Bool.eq_iff_iff, decide_eq_true_iff, ← known]
    change (_ != _) = true ↔ _
    rw [bne_iff_ne]
    constructor
    · intro changed set
      apply changed
      apply UInt64.toBitVec_inj.mp
      apply BitVec.eq_of_getLsbD_eq
      intro offset _
      rw [Bool.eq_iff_iff, getLsbD_mark]
      constructor
      · exact Or.inl
      · rintro (already | rfl)
        · exact already
        · exact set
    · intro clear same
      apply clear
      rw [same, getLsbD_mark]
      exact Or.inr rfl
  · have marks (index offset : Nat) :
        (filter.checkAndSet packetId).2.packetRing.bit index offset = true ↔
          filter.packetRing.bit index offset = true ∨
            index = packetId.toNat / 64 % 128 ∧ offset = packetId.toNat % 64 := by
      change PacketRing.bit (filter.packetRing.set _ _) index offset = true ↔ _
      rw [PacketRing.bit_set, place]
      split
      · rename_i same
        rw [getLsbD_mark, ← PacketRing.bit_get, place, same]
        simp
      · rename_i other
        simp [Ne.symm other]
    have added := holds_insert held (by omega) (by omega) inside marks
    rw [split] at added
    exact added

theorem toNat_blocksAhead {filter : PacketWindowFilter} {packetId : UInt64}
    (ahead : filter.lastPacketId < packetId) :
    (filter.blocksAhead packetId).toNat =
      min (packetId.toNat / 64 - filter.lastPacketId.toNat / 64) 128 := by
  have less : filter.lastPacketId.toNat < packetId.toNat := UInt64.lt_iff_toNat_lt.mp ahead
  have distance : (packetId >>> blockBitLog - filter.lastPacketId >>> blockBitLog).toNat =
      packetId.toNat / 64 - filter.lastPacketId.toNat / 64 := by
    rw [UInt64.toNat_sub_of_le, toNat_block, toNat_block]
    rw [UInt64.le_iff_toNat_le, toNat_block, toNat_block]
    omega
  have whole : ringBlocks.toNat = 128 := rfl
  unfold blocksAhead
  simp only
  split
  · rename_i more
    have more := UInt64.lt_iff_toNat_lt.mp more
    omega
  · rename_i few
    have few := UInt64.le_iff_toNat_le.mp (UInt64.not_lt.mp few)
    omega

/-- Moving forward keeps what the ring holds of the ids accepted so far. -/
theorem moveForward_spec {filter : PacketWindowFilter} {accepted : List Nat} {packetId : UInt64}
    (held : Holds 64 128 filter.packetRing.bit (filter.lastPacketId.toNat / 64) accepted)
    (last : filter.lastPacketId.toNat = highest accepted)
    (ahead : filter.lastPacketId < packetId) :
    Holds 64 128 (filter.moveForward packetId).packetRing.bit (packetId.toNat / 64) accepted := by
  have less : filter.lastPacketId.toNat < packetId.toNat := UInt64.lt_iff_toNat_lt.mp ahead
  have rounds := toNat_blocksAhead ahead
  have behind : ∀ number ∈ accepted, number < 64 * (filter.lastPacketId.toNat / 64 + 1) := by
    intro number member
    have := le_highest member
    omega
  have fits : (filter.lastPacketId >>> blockBitLog).toNat + (filter.blocksAhead packetId).toNat <
      2 ^ 64 := by
    have bound := packetId.toNat_lt
    rw [rounds, toNat_block]
    omega
  have clears (index offset : Nat) :
      (filter.moveForward packetId).packetRing.bit index offset = true ↔
        filter.packetRing.bit index offset = true ∧
          ∀ steps, 0 < steps →
            steps ≤ min (packetId.toNat / 64 - filter.lastPacketId.toNat / 64) 128 →
            index ≠ (filter.lastPacketId.toNat / 64 + steps) % 128 := by
    have cleared := PacketRing.bit_clearAhead filter.packetRing fits index offset
    rw [rounds, toNat_block] at cleared
    exact cleared
  have moved := holds_forward (by decide) held behind clears
  rw [Nat.add_sub_cancel' (Nat.div_le_div_right (Nat.le_of_lt less))] at moved
  exact moved

/-! ## Whole runs -/

/-- A filter stands for the ids accepted since it was new or reset. -/
structure Reflects (filter : PacketWindowFilter) (accepted : List Nat) : Prop where
  last : filter.lastPacketId.toNat = highest accepted
  ring : Holds 64 128 filter.packetRing.bit (filter.lastPacketId.toNat / 64) accepted

theorem reflects_new : Reflects new [] := by
  refine ⟨rfl, ?_⟩
  intro block offset _ _ _
  have clear : PacketRing.bit (Vector.replicate 128 0) (block % 128) offset = false := by
    unfold PacketRing.bit
    rw [Vector.getElem?_replicate]
    split <;> simp
  simp [new, clear]

/-- A reset filter has only the first block in its window, so what is left in the others
does not matter. -/
theorem reflects_reset (filter : PacketWindowFilter) : Reflects filter.reset [] := by
  refine ⟨rfl, ?_⟩
  intro block offset reached _ _
  have first : block = 0 := by
    have start : filter.reset.lastPacketId.toNat = 0 := rfl
    omega
  subst first
  have clear : filter.reset.packetRing.bit 0 offset = false :=
    (PacketRing.bit_set filter.packetRing 0 0 0 offset).trans (by simp)
  simp [clear]

/-- The filter answers as the plain filter does that remembers every id, and goes on
standing for the ids accepted. -/
theorem validatePacketId_spec {filter : PacketWindowFilter} {accepted : List Nat}
    (reflects : Reflects filter accepted) (packetId limit : UInt64) :
    (filter.validatePacketId packetId limit).1 =
        decide (Admits 8128 limit.toNat accepted packetId.toNat) ∧
      Reflects (filter.validatePacketId packetId limit).2
        (if Admits 8128 limit.toNat accepted packetId.toNat then packetId.toNat :: accepted
          else accepted) := by
  obtain ⟨last, ring⟩ := reflects
  have window : windowSize.toNat = 8128 := rfl
  unfold validatePacketId
  by_cases ceased : packetId ≥ limit
  · have refused : ¬ Admits 8128 limit.toNat accepted packetId.toNat := by
      rintro ⟨below, _⟩
      have := UInt64.le_iff_toNat_le.mp ceased
      omega
    rw [if_pos ceased, if_neg refused, decide_eq_false refused]
    exact ⟨rfl, last, ring⟩
  · have below : packetId.toNat < limit.toNat := by
      have := UInt64.lt_iff_toNat_lt.mp (UInt64.not_le.mp ceased)
      omega
    rw [if_neg ceased]
    by_cases ahead : packetId > filter.lastPacketId
    · have more : filter.lastPacketId.toNat < packetId.toNat := UInt64.lt_iff_toNat_lt.mp ahead
      have fresh : packetId.toNat ∉ accepted := by
        intro member
        have := le_highest member
        omega
      have admitted : Admits 8128 limit.toNat accepted packetId.toNat :=
        ⟨below, by omega, fresh⟩
      obtain ⟨answer, lastKept, marked⟩ :=
        @checkAndSet_spec (filter.moveForward packetId) accepted packetId
          (moveForward_spec ring last ahead) (Nat.le_refl _) (Nat.le_add_right _ _)
      rw [if_pos ahead, if_pos admitted, decide_eq_true admitted, answer, decide_eq_true fresh]
      refine ⟨rfl, ?_, ?_⟩
      · rw [lastKept, highest_cons, ← last]
        exact (Nat.max_eq_left (Nat.le_of_lt more)).symm
      · rw [lastKept]
        exact marked
    · have reached : packetId.toNat ≤ filter.lastPacketId.toNat :=
        UInt64.le_iff_toNat_le.mp (UInt64.not_lt.mp ahead)
      have distance : (filter.lastPacketId - packetId).toNat =
          filter.lastPacketId.toNat - packetId.toNat :=
        UInt64.toNat_sub_of_le _ _ (UInt64.not_lt.mp ahead)
      rw [if_neg ahead]
      by_cases stale : filter.lastPacketId - packetId > windowSize
      · have refused : ¬ Admits 8128 limit.toNat accepted packetId.toNat := by
          rintro ⟨_, recent, _⟩
          have := UInt64.lt_iff_toNat_lt.mp stale
          omega
        rw [if_pos stale, if_neg refused, decide_eq_false refused]
        exact ⟨rfl, last, ring⟩
      · have recent : filter.lastPacketId.toNat ≤ packetId.toNat + 8128 := by
          have := UInt64.le_iff_toNat_le.mp (UInt64.not_lt.mp stale)
          omega
        have admits : Admits 8128 limit.toNat accepted packetId.toNat ↔
            packetId.toNat ∉ accepted :=
          ⟨fun admitted => admitted.2.2, fun fresh => ⟨below, by omega, fresh⟩⟩
        obtain ⟨answer, lastKept, marked⟩ := checkAndSet_spec ring reached recent
        rw [if_neg stale, answer]
        refine ⟨by simp only [admits], ?_, ?_⟩
        · rw [lastKept, last]
          split
          · rw [highest_cons]
            omega
          · rfl
        · rw [lastKept]
          split
          · exact marked
          · rename_i refused
            have member : packetId.toNat ∈ accepted := by
              simpa [admits] using refused
            apply holds_congr marked
            intro number
            rw [List.mem_cons]
            exact ⟨fun either => either.elim (fun same => same ▸ member) id, Or.inr⟩

inductive Call where
  | validate (packetId limit : UInt64)
  | reset
  deriving DecidableEq, Repr

structure Watched where
  filter : PacketWindowFilter
  accepted : List Nat

def Watched.start : Watched := ⟨new, []⟩

def Watched.call (watched : Watched) : Call → Watched
  | .validate packetId limit =>
      let (fresh, filter) := watched.filter.validatePacketId packetId limit
      ⟨filter, if fresh then packetId.toNat :: watched.accepted else watched.accepted⟩
  | .reset => ⟨watched.filter.reset, []⟩

theorem reflects_call (watched : Watched) (call : Call)
    (reflects : Reflects watched.filter watched.accepted) :
    Reflects (watched.call call).filter (watched.call call).accepted := by
  cases call with
  | validate packetId limit =>
      obtain ⟨answer, next⟩ := validatePacketId_spec reflects packetId limit
      simp only [Watched.call, answer, decide_eq_true_eq]
      exact next
  | reset => exact reflects_reset watched.filter

theorem reflects_run (calls : List Call) :
    Reflects (Machine.run Watched.call Watched.start calls).filter
      (Machine.run Watched.call Watched.start calls).accepted :=
  @Machine.run_invariant _ _ _ (fun watched : Watched =>
      Reflects watched.filter watched.accepted)
    reflects_call _ reflects_new calls

/-- After any calls, an id is accepted exactly if it is below the limit, at most 8128 behind
the highest id accepted since the filter was new or reset, and not one of those ids. -/
theorem validatePacketId_iff_admits (calls : List Call) (packetId limit : UInt64) :
    ((Machine.run Watched.call Watched.start calls).filter.validatePacketId packetId limit).1 =
      decide (Admits 8128 limit.toNat (Machine.run Watched.call Watched.start calls).accepted
        packetId.toNat) :=
  (validatePacketId_spec (reflects_run calls) packetId limit).1

end PacketWindowFilter

end AlienConnection.Native
