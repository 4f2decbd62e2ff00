import Mathlib.Data.List.Basic
import Mathlib.Data.List.Nodup

/-!
# Insertion-ordered maps

A mutable map that iterates in the order in which keys were first inserted, as
a list of entries. Putting a present key keeps the old key object and its place
and exchanges the value; removing a key forgets its place.
-/

namespace AlienConnection.Library.LinkedMap

variable {κ ν : Type} [DecidableEq κ]

def keys (entries : List (κ × ν)) : List κ := entries.map Prod.fst

def get (key : κ) : List (κ × ν) → Option ν
  | [] => none
  | (first, value) :: rest => if first = key then some value else get key rest

def put (key : κ) (value : ν) : List (κ × ν) → List (κ × ν)
  | [] => [(key, value)]
  | (first, old) :: rest =>
      if first = key then (first, value) :: rest else (first, old) :: put key value rest

def remove (key : κ) (entries : List (κ × ν)) : List (κ × ν) :=
  entries.filter (fun entry => decide (entry.1 ≠ key))

theorem get_put_self (key : κ) (value : ν) (entries : List (κ × ν)) :
    get key (put key value entries) = some value := by
  induction entries with
  | nil => exact if_pos rfl
  | cons entry rest ih =>
      obtain ⟨first, old⟩ := entry
      by_cases same : first = key
      · rw [put, if_pos same, get, if_pos same]
      · rw [put, if_neg same, get, if_neg same]
        exact ih

theorem get_put_other {key other : κ} (differs : other ≠ key) (value : ν)
    (entries : List (κ × ν)) : get other (put key value entries) = get other entries := by
  induction entries with
  | nil => exact if_neg (fun same => differs same.symm)
  | cons entry rest ih =>
      obtain ⟨first, old⟩ := entry
      by_cases same : first = key
      · have skip : first ≠ other := fun eq => differs (eq.symm.trans same)
        rw [put, if_pos same, get, get, if_neg skip, if_neg skip]
      · rw [put, if_neg same, get, get, ih]

theorem get_append (key : κ) (front back : List (κ × ν)) :
    get key (front ++ back) = (get key front).or (get key back) := by
  induction front with
  | nil => rfl
  | cons entry rest ih =>
      obtain ⟨first, value⟩ := entry
      rw [List.cons_append, get, get]
      split
      · rfl
      · exact ih

theorem get_isSome_iff {key : κ} {entries : List (κ × ν)} :
    (get key entries).isSome ↔ key ∈ keys entries := by
  induction entries with
  | nil => simp [get, keys]
  | cons entry rest ih =>
      obtain ⟨first, old⟩ := entry
      by_cases same : first = key
      · simp [get, keys, same]
      · have other : ¬ key = first := fun eq => same eq.symm
        simpa [get, keys, same, other] using ih

theorem get_eq_none_iff {key : κ} {entries : List (κ × ν)} :
    get key entries = none ↔ key ∉ keys entries := by
  rw [← get_isSome_iff, Option.isSome_iff_ne_none, not_not]

theorem mem_of_get {key : κ} {value : ν} {entries : List (κ × ν)}
    (found : get key entries = some value) : (key, value) ∈ entries := by
  induction entries with
  | nil => cases found
  | cons entry rest ih =>
      obtain ⟨first, old⟩ := entry
      by_cases same : first = key
      · rw [get, if_pos same] at found
        rw [← same, ← Option.some.inj found]
        exact List.mem_cons_self
      · rw [get, if_neg same] at found
        exact List.mem_cons_of_mem _ (ih found)

theorem mem_keys_put {key other : κ} {value : ν} {entries : List (κ × ν)} :
    other ∈ keys (put key value entries) ↔ other = key ∨ other ∈ keys entries := by
  rw [← get_isSome_iff, ← get_isSome_iff]
  by_cases same : other = key
  · subst same
    simp [get_put_self]
  · rw [get_put_other same]
    simp [same]

/-- An entry after a put is an old one or the new one. -/
theorem mem_put {key : κ} {value : ν} {entry : κ × ν} {entries : List (κ × ν)}
    (member : entry ∈ put key value entries) :
    entry ∈ entries ∨ (entry.1 = key ∧ entry.2 = value) := by
  induction entries with
  | nil =>
      cases List.mem_singleton.mp member
      exact Or.inr ⟨rfl, rfl⟩
  | cons first rest ih =>
      obtain ⟨head, old⟩ := first
      by_cases same : head = key
      · rw [put, if_pos same] at member
        rcases List.mem_cons.mp member with here | later
        · rw [here]
          exact Or.inr ⟨same, rfl⟩
        · exact Or.inl (List.mem_cons_of_mem _ later)
      · rw [put, if_neg same] at member
        rcases List.mem_cons.mp member with here | later
        · rw [here]
          exact Or.inl List.mem_cons_self
        · rcases ih later with before | new
          · exact Or.inl (List.mem_cons_of_mem _ before)
          · exact Or.inr new

theorem mem_keys_remove {key other : κ} {entries : List (κ × ν)} :
    other ∈ keys (remove key entries) ↔ other ∈ keys entries ∧ other ≠ key := by
  constructor
  · intro member
    obtain ⟨entry, kept, same⟩ := List.mem_map.mp member
    obtain ⟨inside, differs⟩ := List.mem_filter.mp kept
    rw [← same]
    exact ⟨List.mem_map_of_mem inside, of_decide_eq_true differs⟩
  · rintro ⟨member, differs⟩
    obtain ⟨entry, inside, same⟩ := List.mem_map.mp member
    refine List.mem_map.mpr ⟨entry, List.mem_filter.mpr ⟨inside, ?_⟩, same⟩
    rw [same]
    exact decide_eq_true differs

theorem get_of_get_remove {key other : κ} {value : ν} {entries : List (κ × ν)}
    (found : get other (remove key entries) = some value) : get other entries = some value := by
  induction entries with
  | nil => cases found
  | cons entry rest ih =>
      obtain ⟨first, old⟩ := entry
      have differs : other ≠ key := by
        have present : other ∈ keys (remove key ((first, old) :: rest)) :=
          get_isSome_iff.mp (Option.isSome_iff_exists.mpr ⟨value, found⟩)
        exact (mem_keys_remove.mp present).2
      by_cases removed : first = key
      · have skipped : first ≠ other := fun same => differs (same.symm.trans removed)
        rw [remove, List.filter_cons_of_neg (by simp [removed])] at found
        rw [get, if_neg skipped]
        exact ih found
      · rw [remove, List.filter_cons_of_pos (by simp [removed])] at found
        rw [get] at found ⊢
        split at found
        next same => rwa [if_pos same]
        next skipped =>
          rw [if_neg skipped]
          exact ih found

theorem get_remove_self (key : κ) (entries : List (κ × ν)) :
    get key (remove key entries) = none := by
  rw [get_eq_none_iff, mem_keys_remove]
  exact fun present => present.2 rfl

theorem get_remove_other {key other : κ} (differs : other ≠ key) (entries : List (κ × ν)) :
    get other (remove key entries) = get other entries := by
  cases found : get other entries with
  | none =>
      rw [get_eq_none_iff] at found ⊢
      exact fun present => found (mem_keys_remove.mp present).1
  | some value =>
      have present : other ∈ keys (remove key entries) := by
        apply mem_keys_remove.mpr ⟨_, differs⟩
        exact List.mem_map_of_mem (mem_of_get found)
      obtain ⟨kept, same⟩ := Option.isSome_iff_exists.mp (get_isSome_iff.mpr present)
      rw [get_of_get_remove same] at found
      rw [same, found]

theorem nodup_remove {key : κ} {entries : List (κ × ν)} (distinct : (keys entries).Nodup) :
    (keys (remove key entries)).Nodup :=
  distinct.sublist (List.filter_sublist.map Prod.fst)

/-- Removing an absent key changes nothing. -/
theorem remove_of_not_mem {key : κ} {entries : List (κ × ν)} (absent : key ∉ keys entries) :
    remove key entries = entries := by
  apply List.filter_eq_self.mpr
  intro entry member
  apply decide_eq_true
  intro same
  rw [← same] at absent
  exact absent (List.mem_map_of_mem member)

/-- A new key goes to the end. -/
theorem put_of_not_mem {key : κ} (value : ν) {entries : List (κ × ν)}
    (absent : key ∉ keys entries) : put key value entries = entries ++ [(key, value)] := by
  induction entries with
  | nil => rfl
  | cons entry rest ih =>
      obtain ⟨first, old⟩ := entry
      obtain ⟨differs, later⟩ := not_or.mp (List.mem_cons.not.mp absent)
      rw [put, if_neg (fun same => differs same.symm), ih later, List.cons_append]

theorem keys_put_of_mem {key : κ} (value : ν) {entries : List (κ × ν)}
    (present : key ∈ keys entries) : keys (put key value entries) = keys entries := by
  induction entries with
  | nil => cases present
  | cons entry rest ih =>
      obtain ⟨first, old⟩ := entry
      by_cases same : first = key
      · rw [put, if_pos same]
        rfl
      · have later : key ∈ keys rest := by
          rcases List.mem_cons.mp present with here | later
          · exact absurd here.symm same
          · exact later
        rw [put, if_neg same]
        exact congrArg (first :: ·) (ih later)

/-- A put keeps the keys distinct. -/
theorem nodup_put {key : κ} (value : ν) {entries : List (κ × ν)}
    (distinct : (keys entries).Nodup) : (keys (put key value entries)).Nodup := by
  by_cases present : key ∈ keys entries
  · rw [keys_put_of_mem value present]
    exact distinct
  · rw [put_of_not_mem value present, keys, List.map_append]
    apply List.Nodup.append distinct (List.nodup_singleton key)
    exact List.disjoint_singleton.mpr present

/-- Entries with distinct keys, put one after the other, are those entries. -/
theorem foldl_put {front entries : List (κ × ν)} (distinct : (keys (front ++ entries)).Nodup) :
    entries.foldl (fun built entry => put entry.1 entry.2 built) front = front ++ entries := by
  induction entries generalizing front with
  | nil => simp
  | cons entry rest ih =>
      have absent : entry.1 ∉ keys front := by
        rw [keys, List.map_append, List.nodup_append] at distinct
        intro member
        exact distinct.2.2 _ member _ List.mem_cons_self rfl
      rw [List.foldl_cons, put_of_not_mem entry.2 absent, ih]
      · simp
      · simpa using distinct

theorem foldl_put_nil {entries : List (κ × ν)} (distinct : (keys entries).Nodup) :
    entries.foldl (fun built entry => put entry.1 entry.2 built) [] = entries :=
  @foldl_put _ _ _ [] entries distinct

theorem get_foldl_of_not_mem {key : κ} {front entries : List (κ × ν)}
    (absent : key ∉ keys entries) :
    get key (entries.foldl (fun built entry => put entry.1 entry.2 built) front) =
      get key front := by
  induction entries generalizing front with
  | nil => rfl
  | cons entry rest ih =>
      obtain ⟨differs, later⟩ := not_or.mp (List.mem_cons.not.mp absent)
      rw [List.foldl_cons, ih later, get_put_other differs]

section

variable (name : ν → κ)

/-- Values filed under their names: a name is there if some value has it. -/
theorem mem_keys_foldl {key : κ} {front : List (κ × ν)} {values : List ν} :
    key ∈ keys (values.foldl (fun built value => put (name value) value built) front) ↔
      key ∈ keys front ∨ ∃ value ∈ values, name value = key := by
  induction values generalizing front with
  | nil => simp
  | cons value rest ih =>
      rw [List.foldl_cons, ih, mem_keys_put]
      constructor
      · rintro ((same | before) | ⟨other, listed, same⟩)
        · exact Or.inr ⟨value, List.mem_cons_self, same.symm⟩
        · exact Or.inl before
        · exact Or.inr ⟨other, List.mem_cons_of_mem _ listed, same⟩
      · rintro (before | ⟨other, listed, same⟩)
        · exact Or.inl (Or.inr before)
        · rcases List.mem_cons.mp listed with here | later
          · exact Or.inl (Or.inl (by rw [← same, here]))
          · exact Or.inr ⟨other, later, same⟩

/-- Of several values with one name the last one counts. -/
theorem get_foldl_name (key : κ) (front : List (κ × ν)) (values : List ν) :
    get key (values.foldl (fun built value => put (name value) value built) front) =
      (values.filter (fun value => decide (name value = key))).getLast?.or (get key front) := by
  induction values generalizing front with
  | nil => rfl
  | cons first rest ih =>
      rw [List.foldl_cons, ih]
      by_cases here : name first = key
      · rw [List.filter_cons_of_pos (by simpa using here), List.getLast?_cons, here, get_put_self]
        cases (rest.filter (fun value => decide (name value = key))).getLast? <;> rfl
      · rw [List.filter_cons_of_neg (by simpa using here), get_put_other (Ne.symm here)]

/-- What is found under a name is a value with that name. -/
theorem mem_of_get_foldl {key : κ} {value : ν} {front : List (κ × ν)} {values : List ν}
    (found : get key (values.foldl (fun built value => put (name value) value built) front) =
      some value) :
    get key front = some value ∨ (value ∈ values ∧ name value = key) := by
  rw [get_foldl_name, Option.or_eq_some_iff] at found
  rcases found with last | ⟨_, before⟩
  · obtain ⟨listed, same⟩ := List.mem_filter.mp (List.mem_of_getLast? last)
    exact Or.inr ⟨listed, of_decide_eq_true same⟩
  · exact Or.inl before

end

def assign (key : κ) (value : Option ν) (entries : List (κ × ν)) : List (κ × ν) :=
  match value with
  | none => remove key entries
  | some value => put key value entries

theorem get_assign_self (key : κ) (value : Option ν) (entries : List (κ × ν)) :
    get key (assign key value entries) = value := by
  cases value with
  | none => exact get_remove_self key entries
  | some value => exact get_put_self key value entries

theorem get_assign_other {key other : κ} (differs : other ≠ key) (value : Option ν)
    (entries : List (κ × ν)) : get other (assign key value entries) = get other entries := by
  cases value with
  | none => exact get_remove_other differs entries
  | some value => exact get_put_other differs value entries

/-- After assignments to distinct keys, each key has what was assigned to it. -/
theorem get_foldl_assign {assignments : List (κ × Option ν)} (distinct : (keys assignments).Nodup)
    {key : κ} {value : Option ν} (listed : (key, value) ∈ assignments) (entries : List (κ × ν)) :
    get key (assignments.foldl (fun built item => assign item.1 item.2 built) entries) = value := by
  have later : ∀ (rest : List (κ × Option ν)) (entries : List (κ × ν)), key ∉ keys rest →
      get key (rest.foldl (fun built item => assign item.1 item.2 built) entries) =
        get key entries := by
    intro rest
    induction rest with
    | nil => exact fun _ _ => rfl
    | cons item rest ih =>
        intro entries absent
        obtain ⟨differs, behind⟩ := not_or.mp (List.mem_cons.not.mp absent)
        rw [List.foldl_cons, ih _ behind, get_assign_other differs]
  induction assignments generalizing entries with
  | nil => cases listed
  | cons item rest ih =>
      obtain ⟨absent, distinctRest⟩ := List.nodup_cons.mp distinct
      rw [List.foldl_cons]
      rcases List.mem_cons.mp listed with here | behind
      · subst here
        rw [later rest _ absent, get_assign_self]
      · exact ih distinctRest behind _

theorem get_eq_some_iff {key : κ} {value : ν} {entries : List (κ × ν)}
    (distinct : (keys entries).Nodup) :
    get key entries = some value ↔ (key, value) ∈ entries := by
  constructor
  · exact mem_of_get
  · intro member
    induction entries with
    | nil => cases member
    | cons entry rest ih =>
        obtain ⟨first, old⟩ := entry
        obtain ⟨absent, distinctRest⟩ := List.nodup_cons.mp distinct
        rcases List.mem_cons.mp member with here | later
        · cases here
          exact if_pos rfl
        · have differs : first ≠ key := by
            rintro rfl
            exact absent (List.mem_map.mpr ⟨_, later, rfl⟩)
          rw [get, if_neg differs]
          exact ih distinctRest later

theorem get_map {μ : Type} (change : ν → μ) (key : κ) (entries : List (κ × ν)) :
    get key (entries.map fun entry => (entry.1, change entry.2)) =
      (get key entries).map change := by
  induction entries with
  | nil => rfl
  | cons entry rest ih =>
      obtain ⟨first, value⟩ := entry
      simp only [List.map_cons, get]
      split
      · rfl
      · exact ih

/-- With distinct keys the order of the entries does not matter. -/
theorem get_perm {first second : List (κ × ν)} (same : first.Perm second)
    (distinct : (keys second).Nodup) (key : κ) : get key first = get key second := by
  have distinctFirst : (keys first).Nodup := (same.map Prod.fst).nodup_iff.mpr distinct
  apply Option.ext
  intro value
  rw [get_eq_some_iff distinctFirst, get_eq_some_iff distinct]
  exact same.mem_iff

end AlienConnection.Library.LinkedMap
