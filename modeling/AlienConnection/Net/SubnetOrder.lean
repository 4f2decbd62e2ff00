import AlienConnection.Library.SearchedList
import AlienConnection.Library.SortedList
import AlienConnection.Net.Subnet

/-!
# The order of subnets

`compareTo` orders the subnets of both families by size, bytes and prefix length. It is total,
and only equal subnets tie, so a list that searches by it has no subnet twice. The hash of an
address belongs to the platform.
-/

namespace AlienConnection.Net.Subnet

open Library

/-- `equals`, where an object of another class is cast to null. -/
def equals (subnet : Subnet) : Option Subnet → Bool
  | none => false
  | some that => subnet.address == that.address && subnet.prefixSize == that.prefixSize

def hashCode (addressHash : Address → BitVec 32) (subnet : Subnet) : BitVec 32 :=
  [addressHash subnet.address, BitVec.ofNat 32 subnet.prefixSize].foldl
    (fun result hash => 31 * result + hash) 1

theorem equals_iff {first second : Subnet} :
    first.equals (some second) = true ↔ first = second := by
  obtain ⟨address, prefixSize, _⟩ := first
  simp only [equals, Bool.and_eq_true, beq_iff_eq]
  constructor
  · rintro ⟨rfl, rfl⟩
    rfl
  · rintro rfl
    exact ⟨rfl, rfl⟩

/-! ## Totality -/

theorem compareBytes_swap (first second : List (BitVec 8)) :
    compareBytes first second = (compareBytes second first).swap := by
  induction first generalizing second with
  | nil => cases second <;> rfl
  | cons byte rest ih =>
      cases second with
      | nil => rfl
      | cons other tail =>
          rw [compareBytes, compareBytes, Ordering.swap_then, ← ih tail,
            ← Nat.compare_swap byte.toNat other.toNat, Ordering.swap_swap]

theorem compareTo_swap (first second : Subnet) :
    compareTo first second = (compareTo second first).swap := by
  rw [compareTo, compareTo, Ordering.swap_then, Ordering.swap_then, ← compareBytes_swap,
    Nat.compare_swap, Nat.compare_swap]

/-- Not greater means not greater in the sort key. -/
theorem isLE_compareTo_iff {first second : Subnet} :
    (compareTo first second).isLE = true ↔ sortKey first ≤ sortKey second := by
  rw [← not_lt, ← compareTo_eq_lt_iff, compareTo_swap first second]
  cases compareTo second first <;> decide

theorem compareTo_eq_eq_iff {first second : Subnet} :
    compareTo first second = .eq ↔ first = second := by
  constructor
  · intro tie
    have back : compareTo second first = .eq := by
      rw [compareTo_swap, tie]
      rfl
    apply sortKey_injective
    apply le_antisymm
    · exact isLE_compareTo_iff.mp (by rw [tie]; rfl)
    · exact isLE_compareTo_iff.mp (by rw [back]; rfl)
  · rintro rfl
    have mirrored := compareTo_swap first first
    cases order : compareTo first first <;> simp [order] at mirrored ⊢

instance : Std.TransCmp compareTo where
  eq_swap := compareTo_swap _ _
  isLE_trans low high :=
    isLE_compareTo_iff.mpr (le_trans (isLE_compareTo_iff.mp low) (isLE_compareTo_iff.mp high))

instance : Std.LawfulEqCmp compareTo where
  compare_self := compareTo_eq_eq_iff.mpr rfl
  eq_of_compare := compareTo_eq_eq_iff.mp

/-! ## The list of an access control list -/

/-- Adding by the comparison is adding in the order of the sort key. -/
theorem items_addAll (neighbour : List Subnet → Subnet → Nat → Nat) (subnets : List Subnet) :
    ((SortedList.empty : SortedList sortKey).addAll subnets).items =
      SearchedList.addAll compareTo neighbour [] subnets := by
  have increasing : SearchedList.Increasing compareTo
      (SearchedList.addAll compareTo neighbour [] subnets) :=
    SearchedList.increasing_addAll List.Pairwise.nil subnets
  have keys : (SearchedList.addAll compareTo neighbour [] subnets).Pairwise
      (fun first second => sortKey first ≤ sortKey second) :=
    increasing.imp (fun less => le_of_lt (compareTo_eq_lt_iff _ _ |>.mp less))
  have distinct : (SearchedList.addAll compareTo neighbour [] subnets).Nodup := by
    refine increasing.imp ?_
    rintro first second less rfl
    rw [compareTo_eq_eq_iff.mpr rfl] at less
    cases less
  have same : (SortedList.empty : SortedList sortKey).addAll subnets =
      ⟨SearchedList.addAll compareTo neighbour [] subnets, keys, distinct⟩ := by
    apply SortedList.ext_of_injective sortKey_injective
    intro item
    rw [SortedList.mem_addAll_empty, ← SortedList.mem_items,
      SearchedList.mem_addAll List.Pairwise.nil]
    simp
  exact congrArg SortedList.items same

/-- **The order of subnets.** It is total, antisymmetric and transitive, ties are equalities,
and equal subnets have equal hashes. A list that is kept in this order has no two equal
subnets, whatever is added. -/
theorem compareTo_total_order (addressHash : Address → BitVec 32)
    (neighbour : List Subnet → Subnet → Nat → Nat) :
    (∀ first second, compareTo first second = (compareTo second first).swap) ∧
    (∀ first second third, compareTo first second ≠ .gt → compareTo second third ≠ .gt →
      compareTo first third ≠ .gt) ∧
    (∀ first second, compareTo first second ≠ .gt → compareTo second first ≠ .gt →
      first.equals (some second) = true) ∧
    (∀ first second, compareTo first second = .eq ↔ first.equals (some second) = true) ∧
    (∀ first second : Subnet, first.equals (some second) = true →
      first.hashCode addressHash = second.hashCode addressHash) ∧
    ∀ subnets : List Subnet,
      ((SortedList.empty : SortedList sortKey).addAll subnets).items =
        SearchedList.addAll compareTo neighbour [] subnets ∧
      (SearchedList.addAll compareTo neighbour [] subnets).Pairwise
        (fun first second => first.equals (some second) = false) := by
  have notGreater : ∀ {first second}, compareTo first second ≠ .gt ↔
      (compareTo first second).isLE = true := by
    intro first second
    cases compareTo first second <;> decide
  refine ⟨compareTo_swap, ?_, ?_, ?_, ?_, ?_⟩
  · intro first second third low high
    rw [notGreater] at low high ⊢
    exact Std.TransCmp.isLE_trans low high
  · intro first second low high
    rw [notGreater, isLE_compareTo_iff] at low high
    exact equals_iff.mpr (sortKey_injective (le_antisymm low high))
  · intro first second
    rw [compareTo_eq_eq_iff, equals_iff]
  · intro first second same
    rw [equals_iff.mp same]
  · intro subnets
    refine ⟨items_addAll neighbour subnets, ?_⟩
    refine (SearchedList.increasing_addAll List.Pairwise.nil subnets).imp ?_
    intro first second less
    rw [← Bool.not_eq_true, equals_iff]
    rintro rfl
    rw [compareTo_eq_eq_iff.mpr rfl] at less
    cases less

end AlienConnection.Net.Subnet
