import Mathlib.Data.List.Sort
import Mathlib.Order.Compare

/-!
# Lists searched by a comparison

A list that is kept in order by a comparison finds the place of an item by halving a range.
An item that is there already is replaced. If the comparison is a total order in which only
equal items tie, the list is strictly increasing after every addition, so no item is there
twice.
-/

namespace AlienConnection.Library.SearchedList

variable {α : Type} [DecidableEq α]

section

variable (order : α → α → Ordering) (neighbour : List α → α → Nat → Nat)

/-- The place of an item in a range of the list. Where another item ties, the platform looks
at the neighbours of that place. -/
def findIndexOf (items : List α) (item : α) (left right : Nat) : Nat :=
  if left < right then
    let middle := (left + right) / 2
    match items[middle]? with
    | none => left
    | some found =>
        match order found item with
        | .lt => findIndexOf items item (middle + 1) right
        | .gt => findIndexOf items item left middle
        | .eq => if found = item then middle else neighbour items item middle
  else left
termination_by right - left

def add (items : List α) (item : α) : List α :=
  let index := findIndexOf order neighbour items item 0 items.length
  if items[index]? = some item then items.set index item
  else items.take index ++ item :: items.drop index

def addAll (items added : List α) : List α := added.foldl (add order neighbour) items

end

variable {order : α → α → Ordering} {neighbour : List α → α → Nat → Nat} {items : List α}
  {item : α}

abbrev Increasing (order : α → α → Ordering) (items : List α) : Prop :=
  items.Pairwise (fun first second => order first second = .lt)

/-- A place that separates the smaller items from the greater ones, of which the item itself
may be the first. -/
structure Place (order : α → α → Ordering) (items : List α) (item : α) (index : Nat) : Prop where
  before : ∀ other ∈ items.take index, order other item = .lt
  behind : (∃ rest, items.drop index = item :: rest) ∨
    ∀ other ∈ items.drop index, order item other = .lt

omit [DecidableEq α] in
/-- What is found at a place separates the items before it from those behind it. -/
theorem split_at {index : Nat} {found : α} (increasing : Increasing order items)
    (here : items[index]? = some found) :
    items.drop index = found :: items.drop (index + 1) ∧
      (∀ other ∈ items.take index, order other found = .lt) ∧
      ∀ other ∈ items.drop (index + 1), order found other = .lt := by
  obtain ⟨bound, value⟩ := List.getElem?_eq_some_iff.mp here
  have cut : items.drop index = found :: items.drop (index + 1) := by
    rw [List.drop_eq_getElem_cons bound, value]
  have whole := increasing
  rw [Increasing, ← List.take_append_drop index items, cut, List.pairwise_append,
    List.pairwise_cons] at whole
  exact ⟨cut, fun other listed => whole.2.2 other listed found List.mem_cons_self, whole.2.1.1⟩

section

variable [Std.TransCmp order] [Std.LawfulEqCmp order]

/-- The search keeps the smaller items before its range and the greater ones behind it. -/
theorem place_findIndexOf (increasing : Increasing order items) (left right : Nat)
    (ordered : left ≤ right) (inside : right ≤ items.length)
    (before : ∀ other ∈ items.take left, order other item = .lt)
    (behind : ∀ other ∈ items.drop right, order item other = .lt) :
    Place order items item (findIndexOf order neighbour items item left right) := by
  fun_induction findIndexOf order neighbour items item left right with
  | case1 left right range middle missing =>
      have bound : middle < items.length := by omega
      rw [List.getElem?_eq_getElem bound] at missing
      cases missing
  | case2 left right range middle found here smaller ih =>
      obtain ⟨_, earlier, _⟩ := split_at increasing here
      refine ih (by omega) inside ?_ behind
      intro other listed
      rw [List.take_add_one, here, List.mem_append] at listed
      rcases listed with front | last
      · exact Std.TransCmp.lt_trans (earlier other front) smaller
      · rw [List.mem_singleton.mp last]
        exact smaller
  | case3 left right range middle found here greater ih =>
      obtain ⟨cut, _, later⟩ := split_at increasing here
      have above : order item found = .lt := Std.OrientedCmp.lt_of_gt greater
      refine ih (by omega) (by omega) before ?_
      intro other listed
      rw [cut] at listed
      rcases List.mem_cons.mp listed with same | behindIt
      · rw [same]
        exact above
      · exact Std.TransCmp.lt_trans above (later other behindIt)
  | case4 left right range middle here tie =>
      obtain ⟨cut, earlier, _⟩ := split_at increasing here
      exact ⟨earlier, Or.inl ⟨_, cut⟩⟩
  | case5 left right range middle found here tie other =>
      exact absurd (Std.LawfulEqCmp.eq_of_compare tie) other
  | case6 left right empty =>
      have same : left = right := by omega
      subst same
      exact ⟨before, Or.inr behind⟩

theorem place_of_increasing (increasing : Increasing order items) :
    Place order items item (findIndexOf order neighbour items item 0 items.length) := by
  apply place_findIndexOf increasing 0 items.length (Nat.zero_le _) (Nat.le_refl _)
  · intro other listed
    cases listed
  · intro other listed
    rw [List.drop_length] at listed
    cases listed

/-- An addition leaves the list as it is, or puts the item between the smaller items and the
greater ones. -/
theorem add_cases (increasing : Increasing order items) (item : α) :
    (item ∈ items ∧ add order neighbour items item = items) ∨
    ∃ front back, items = front ++ back ∧
      add order neighbour items item = front ++ item :: back ∧
      (∀ other ∈ front, order other item = .lt) ∧ ∀ other ∈ back, order item other = .lt := by
  have place : Place order items item _ := @place_of_increasing _ _ _ neighbour _ _ _ _ increasing
  generalize found : findIndexOf order neighbour items item 0 items.length = index at place
  have added : add order neighbour items item =
      if items[index]? = some item then items.set index item
      else items.take index ++ item :: items.drop index := by
    rw [← found]
    rfl
  rw [added]
  split
  next here =>
    obtain ⟨bound, value⟩ := List.getElem?_eq_some_iff.mp here
    refine Or.inl ⟨List.mem_of_getElem? here, ?_⟩
    rw [← value, List.set_getElem_self]
  next elsewhere =>
    refine Or.inr ⟨_, _, (List.take_append_drop index items).symm, rfl, place.before, ?_⟩
    rcases place.behind with ⟨rest, cut⟩ | greater
    · have here : items[index]? = some item := by
        rw [← List.head?_drop, cut, List.head?_cons]
      exact absurd here elsewhere
    · exact greater

theorem increasing_add (increasing : Increasing order items) (item : α) :
    Increasing order (add order neighbour items item) := by
  rcases add_cases increasing item with ⟨_, same⟩ | ⟨front, back, whole, added, before, behind⟩
  · rw [same]
    exact increasing
  · rw [whole, Increasing, List.pairwise_append] at increasing
    obtain ⟨frontSorted, backSorted, across⟩ := increasing
    rw [added, Increasing, List.pairwise_append]
    refine ⟨frontSorted, List.pairwise_cons.mpr ⟨behind, backSorted⟩, ?_⟩
    intro first inFront second listed
    rcases List.mem_cons.mp listed with same | inBack
    · rw [same]
      exact before first inFront
    · exact across first inFront second inBack

theorem mem_add (increasing : Increasing order items) {item other : α} :
    other ∈ add order neighbour items item ↔ other ∈ items ∨ other = item := by
  rcases add_cases increasing item with ⟨present, same⟩ | ⟨front, back, whole, added, _⟩
  · rw [same]
    constructor
    · exact Or.inl
    · rintro (listed | rfl)
      · exact listed
      · exact present
  · rw [added, whole, List.mem_append, List.mem_append, List.mem_cons]
    tauto

/-- However many items are added, the list is strictly increasing. -/
theorem increasing_addAll (increasing : Increasing order items) (added : List α) :
    Increasing order (addAll order neighbour items added) := by
  induction added generalizing items with
  | nil => exact increasing
  | cons item rest ih => exact ih (increasing_add increasing item)

theorem mem_addAll (increasing : Increasing order items) {added : List α} {other : α} :
    other ∈ addAll order neighbour items added ↔ other ∈ items ∨ other ∈ added := by
  induction added generalizing items with
  | nil => simp [addAll]
  | cons item rest ih =>
      rw [List.mem_cons, ← or_assoc, ← @mem_add _ _ order neighbour items _ _ increasing]
      exact ih (increasing_add increasing item)

end

end AlienConnection.Library.SearchedList
