import Mathlib.Data.List.Basic
import Mathlib.Data.List.Nodup

/-!
# Rows identified by a key

A table is a list of rows and a key function. Replacing and removing act on the
row with a given key and leave the order of all other rows unchanged. With
distinct keys, looking a key up is the same as membership.
-/

namespace AlienConnection.Library.Rows

variable {ρ κ : Type} [DecidableEq κ] {key : ρ → κ}

def lookup (key : ρ → κ) (wanted : κ) (rows : List ρ) : Option ρ :=
  rows.find? (fun row => decide (key row = wanted))

def replace (key : ρ → κ) (value : ρ) (rows : List ρ) : List ρ :=
  rows.map (fun row => if key row = key value then value else row)

def remove (key : ρ → κ) (unwanted : κ) (rows : List ρ) : List ρ :=
  rows.filter (fun row => decide (key row ≠ unwanted))

@[simp]
theorem map_key_replace (value : ρ) (rows : List ρ) :
    (replace key value rows).map key = rows.map key := by
  rw [replace, List.map_map]
  apply List.map_congr_left
  intro row _
  by_cases same : key row = key value
  · rw [Function.comp_apply, if_pos same, same]
  · rw [Function.comp_apply, if_neg same]

theorem mem_replace {value row : ρ} {rows : List ρ} (member : row ∈ replace key value rows) :
    row = value ∨ (row ∈ rows ∧ key row ≠ key value) := by
  obtain ⟨old, oldMember, result⟩ := List.mem_map.mp member
  by_cases same : key old = key value
  · rw [if_pos same] at result
    exact Or.inl result.symm
  · rw [if_neg same] at result
    subst result
    exact Or.inr ⟨oldMember, same⟩

theorem mem_replace_of_ne {value row : ρ} {rows : List ρ} (member : row ∈ rows)
    (differs : key row ≠ key value) : row ∈ replace key value rows :=
  List.mem_map.mpr ⟨row, member, if_neg differs⟩

theorem mem_replace_self {value row : ρ} {rows : List ρ} (member : row ∈ rows)
    (same : key row = key value) : value ∈ replace key value rows :=
  List.mem_map.mpr ⟨row, member, if_pos same⟩

theorem lookup_mem {wanted : κ} {row : ρ} {rows : List ρ}
    (found : lookup key wanted rows = some row) : row ∈ rows ∧ key row = wanted := by
  refine ⟨List.mem_of_find?_eq_some found, ?_⟩
  have matched := List.find?_some found
  exact of_decide_eq_true matched

omit [DecidableEq κ] in
/-- Two rows of a table with distinct keys that share a key are one row. -/
theorem eq_of_key_eq {rows : List ρ} (distinct : (rows.map key).Nodup) {first second : ρ}
    (firstMember : first ∈ rows) (secondMember : second ∈ rows)
    (same : key first = key second) : first = second :=
  List.inj_on_of_nodup_map distinct firstMember secondMember same

theorem lookup_eq_some_iff {rows : List ρ} (distinct : (rows.map key).Nodup)
    {wanted : κ} {row : ρ} :
    lookup key wanted rows = some row ↔ row ∈ rows ∧ key row = wanted := by
  constructor
  · exact lookup_mem
  · rintro ⟨member, same⟩
    cases found : lookup key wanted rows with
    | none =>
        have absent := List.find?_eq_none.mp found row member
        exact absurd (decide_eq_true same) absent
    | some other =>
        obtain ⟨otherMember, otherSame⟩ := lookup_mem found
        rw [eq_of_key_eq distinct otherMember member (otherSame.trans same.symm)]

theorem lookup_replace_self {rows : List ρ} {value : ρ} (present : key value ∈ rows.map key) :
    lookup key (key value) (replace key value rows) = some value := by
  induction rows with
  | nil => cases present
  | cons first rest ih =>
      by_cases same : key first = key value
      · simp [lookup, replace, same]
      · have later : key value ∈ rest.map key := by
          rcases List.mem_cons.mp present with here | later
          · exact absurd here.symm same
          · exact later
        have found := ih later
        unfold lookup replace at found ⊢
        rw [List.map_cons, if_neg same, List.find?_cons_of_neg (by simpa using same)]
        exact found

theorem lookup_replace_other {rows : List ρ} {value : ρ} {wanted : κ}
    (differs : wanted ≠ key value) :
    lookup key wanted (replace key value rows) = lookup key wanted rows := by
  induction rows with
  | nil => rfl
  | cons first rest ih =>
      unfold lookup replace at ih ⊢
      rw [List.map_cons]
      by_cases same : key first = key value
      · have skip : ¬ key value = wanted := fun eq => differs eq.symm
        rw [if_pos same, List.find?_cons_of_neg (by simpa using skip),
          List.find?_cons_of_neg (by simpa [same] using skip)]
        exact ih
      · rw [if_neg same]
        by_cases here : key first = wanted
        · rw [List.find?_cons_of_pos (by simpa using here),
            List.find?_cons_of_pos (by simpa using here)]
        · rw [List.find?_cons_of_neg (by simpa using here),
            List.find?_cons_of_neg (by simpa using here)]
          exact ih

/-- Overwriting a row of a mapped list, position by position. -/
theorem replace_map {α : Type} {value : ρ} {items : List α} {version next : α → ρ}
    (pointwise : ∀ item ∈ items,
      next item = if key (version item) = key value then value else version item) :
    replace key value (items.map version) = items.map next := by
  rw [replace, List.map_map]
  exact List.map_congr_left (fun item member => (pointwise item member).symm)

theorem replace_append (value : ρ) (front back : List ρ) :
    replace key value (front ++ back) = replace key value front ++ replace key value back :=
  List.map_append

/-- Writing a row back unchanged changes nothing. -/
theorem replace_eq_self {rows : List ρ} (distinct : (rows.map key).Nodup) {value : ρ}
    (member : value ∈ rows) : replace key value rows = rows := by
  unfold replace
  conv_rhs => rw [← List.map_id rows]
  apply List.map_congr_left
  intro row rowMember
  by_cases same : key row = key value
  · rw [if_pos same]
    exact (eq_of_key_eq distinct rowMember member same).symm
  · rw [if_neg same]
    rfl

omit [DecidableEq κ] in
/-- Tables with the same column of distinct keys are equal once the rows of one
are among those of the other. -/
theorem eq_of_map_key_eq {first second : List ρ} (keys : first.map key = second.map key)
    (distinct : (second.map key).Nodup) (subset : ∀ row ∈ first, row ∈ second) :
    first = second := by
  have lengths : first.length = second.length := by
    rw [← List.length_map key, keys, List.length_map]
  refine List.ext_getElem lengths ?_
  intro index inFirst inSecond
  have sameKey : key first[index] = key second[index] := by
    have column := congrArg (fun column => column[index]?) keys
    simpa [inFirst, inSecond] using column
  exact eq_of_key_eq distinct (subset _ (List.getElem_mem inFirst)) (List.getElem_mem inSecond)
    sameKey

theorem mem_remove {unwanted : κ} {row : ρ} {rows : List ρ} :
    row ∈ remove key unwanted rows ↔ row ∈ rows ∧ key row ≠ unwanted := by
  rw [remove, List.mem_filter, decide_eq_true_iff]

omit [DecidableEq κ] in
/-- Lists of one length have items in the same places. -/
theorem exists_getElem? {first : List κ} {second : List ρ} (lengths : second.length = first.length)
    {index : Nat} {item : κ} (listed : first[index]? = some item) :
    ∃ row, second[index]? = some row := by
  obtain ⟨bound, _⟩ := List.getElem?_eq_some_iff.mp listed
  exact ⟨_, List.getElem?_eq_getElem (lengths.symm ▸ bound)⟩

end AlienConnection.Library.Rows
