import Mathlib.Data.List.Lex
import Mathlib.Data.List.Sort

/-!
# Sorted lists without equal items

Items in the order of a key, no item twice. Where a new item goes among others
with its key is not part of the contract; here it goes before them. With an
injective key the members determine the list.
-/

namespace AlienConnection.Library

structure SortedList {α κ : Type} [LinearOrder κ] (key : α → κ) where
  items : List α
  sorted : items.Pairwise (fun first second => key first ≤ key second)
  distinct : items.Nodup

namespace SortedList

variable {α κ : Type} [LinearOrder κ] {key : α → κ}

instance : Membership α (SortedList key) where
  mem list item := item ∈ list.items

theorem mem_items {item : α} {list : SortedList key} : item ∈ list.items ↔ item ∈ list := Iff.rfl

def empty : SortedList key where
  items := []
  sorted := List.Pairwise.nil
  distinct := List.nodup_nil

theorem not_mem_empty {item : α} : ¬ item ∈ (empty : SortedList key) := List.not_mem_nil

local instance : IsTrans α (fun first second => key first ≤ key second) := ⟨fun _ _ _ => le_trans⟩

local instance : Std.Total (fun first second : α => key first ≤ key second) :=
  ⟨fun first second => le_total (key first) (key second)⟩

variable [DecidableEq α]

/-- Add an item; an equal one takes its place. -/
def add (list : SortedList key) (item : α) : SortedList key :=
  if present : item ∈ list.items then list
  else
    { items := list.items.orderedInsert (fun first second => key first ≤ key second) item
      sorted := list.sorted.orderedInsert item list.items
      distinct := ((List.perm_orderedInsert _ item list.items).nodup_iff).mpr
        (List.nodup_cons.mpr ⟨present, list.distinct⟩) }

def addAll (list : SortedList key) (items : List α) : SortedList key := items.foldl add list

theorem mem_add {list : SortedList key} {item other : α} :
    other ∈ list.add item ↔ other ∈ list ∨ other = item := by
  unfold add
  split
  next present =>
    constructor
    · exact Or.inl
    · rintro (member | rfl)
      · exact member
      · exact present
  next => exact (List.mem_orderedInsert _).trans or_comm

theorem mem_addAll {list : SortedList key} {items : List α} {other : α} :
    other ∈ list.addAll items ↔ other ∈ list ∨ other ∈ items := by
  induction items generalizing list with
  | nil => simp [addAll]
  | cons item rest ih =>
      rw [List.mem_cons, ← or_assoc, ← mem_add]
      exact ih

/-- The items of an addition to the empty list. -/
theorem mem_addAll_empty {items : List α} {other : α} :
    other ∈ (empty : SortedList key).addAll items ↔ other ∈ items := by
  rw [mem_addAll]
  exact or_iff_right not_mem_empty

omit [DecidableEq α] in
/-- The same members in some order. -/
theorem perm_of_mem_iff {first second : SortedList key}
    (same : ∀ item, item ∈ first ↔ item ∈ second) : first.items.Perm second.items :=
  (List.perm_ext_iff_of_nodup first.distinct second.distinct).mpr same

omit [DecidableEq α] in
/-- Where no two items share a key, the members determine the list. -/
theorem ext_of_mem_iff {first second : SortedList key}
    (same : ∀ item, item ∈ first ↔ item ∈ second)
    (apart : ∀ item ∈ first, ∀ other ∈ first, key item = key other → item = other) :
    first = second := by
  have items : first.items = second.items := by
    refine (perm_of_mem_iff same).eq_of_pairwise ?_ first.sorted second.sorted
    intro item other member otherMember le ge
    exact apart item member other ((same other).mpr otherMember) (le_antisymm le ge)
  cases first
  cases second
  simp_all

omit [DecidableEq α] in
theorem ext_of_injective (injective : Function.Injective key) {first second : SortedList key}
    (same : ∀ item, item ∈ first ↔ item ∈ second) : first = second :=
  ext_of_mem_iff same (fun _ _ _ _ sameKey => injective sameKey)

end SortedList

end AlienConnection.Library
