import AlienConnection.Database.Profile
import AlienConnection.Library.Rows

/-!
# The profile table

Rows stand in `rowid` order, the order in which `SELECT * FROM Profile` returns
them. The key is `INTEGER PRIMARY KEY AUTOINCREMENT`: `sequence` is the largest
key handed out so far, so a new key is larger than every key ever used. The
structure carries these facts, and every statement of the data access object
keeps them.
-/

namespace AlienConnection.Database

open Library

structure ProfileTable where
  rows : List Profile
  sequence : Int
  ordered : rows.Pairwise (fun first second => first.id < second.id)
  positive : ∀ row ∈ rows, 0 < row.id
  bounded : ∀ row ∈ rows, row.id ≤ sequence
  started : 0 ≤ sequence

namespace ProfileTable

def empty : ProfileTable where
  rows := []
  sequence := 0
  ordered := List.Pairwise.nil
  positive := by intro row member; cases member
  bounded := by intro row member; cases member
  started := Int.le_refl 0

/-- Row equality decides table equality once the sequence is known. -/
theorem ext_rows {first second : ProfileTable} (rows : first.rows = second.rows)
    (sequence : first.sequence = second.sequence) : first = second := by
  cases first
  cases second
  simp_all

theorem ids_nodup (table : ProfileTable) : (table.rows.map Profile.id).Nodup := by
  rw [List.Nodup, List.pairwise_map]
  exact table.ordered.imp (fun less => Int.ne_of_lt less)

def get (table : ProfileTable) (id : Int) : Option Profile :=
  Rows.lookup Profile.id id table.rows

def listAll (table : ProfileTable) : List Profile := table.rows

/-- `SELECT MAX(userOrder) + 1`, which is null on an empty table. -/
def nextOrder (table : ProfileTable) : Option Int :=
  (table.rows.map Profile.userOrder).max?.map (· + 1)

def create (table : ProfileTable) (value : Profile) : Int × ProfileTable :=
  (table.sequence + 1,
    { rows := table.rows ++ [{ value with id := table.sequence + 1 }]
      sequence := table.sequence + 1
      ordered := by
        rw [List.pairwise_append]
        refine ⟨table.ordered, List.pairwise_singleton _ _, ?_⟩
        intro row member other otherMember
        rw [List.mem_singleton.mp otherMember]
        exact Int.lt_add_one_of_le (table.bounded row member)
      positive := by
        intro row member
        rcases List.mem_append.mp member with old | new
        · exact table.positive row old
        · rw [List.mem_singleton.mp new]
          exact Int.lt_add_one_of_le table.started
      bounded := by
        intro row member
        rcases List.mem_append.mp member with old | new
        · have bound := table.bounded row old
          omega
        · cases List.mem_singleton.mp new
          exact Int.le_refl _
      started := by
        have start := table.started
        omega })

def write (table : ProfileTable) (value : Profile) : ProfileTable where
  rows := Rows.replace Profile.id value table.rows
  sequence := table.sequence
  ordered := by
    have pairs := table.ordered
    rw [← List.pairwise_map (f := Profile.id) (R := (· < ·))] at pairs ⊢
    rw [Rows.map_key_replace]
    exact pairs
  positive := by
    intro row member
    have key : row.id ∈ (Rows.replace Profile.id value table.rows).map Profile.id :=
      List.mem_map_of_mem member
    rw [Rows.map_key_replace] at key
    obtain ⟨old, oldMember, same⟩ := List.mem_map.mp key
    rw [← same]
    exact table.positive old oldMember
  bounded := by
    intro row member
    have key : row.id ∈ (Rows.replace Profile.id value table.rows).map Profile.id :=
      List.mem_map_of_mem member
    rw [Rows.map_key_replace] at key
    obtain ⟨old, oldMember, same⟩ := List.mem_map.mp key
    rw [← same]
    exact table.bounded old oldMember
  started := table.started

/-- `@Update`, with the number of rows it changed. -/
def update (table : ProfileTable) (value : Profile) : Nat × ProfileTable :=
  ((table.rows.filter (fun row => decide (row.id = value.id))).length, table.write value)

def erase (table : ProfileTable) (id : Int) : ProfileTable where
  rows := Rows.remove Profile.id id table.rows
  sequence := table.sequence
  ordered := table.ordered.filter _
  positive := by
    intro row member
    exact table.positive row (Rows.mem_remove.mp member).1
  bounded := by
    intro row member
    exact table.bounded row (Rows.mem_remove.mp member).1
  started := table.started

/-- `DELETE ... WHERE id = :id`, with the number of rows it removed. -/
def delete (table : ProfileTable) (id : Int) : Nat × ProfileTable :=
  ((table.rows.filter (fun row => decide (row.id = id))).length, table.erase id)

def restrict (table : ProfileTable) (keep : Profile → Bool) : ProfileTable where
  rows := table.rows.filter keep
  sequence := table.sequence
  ordered := table.ordered.filter keep
  positive := fun row member => table.positive row (List.mem_filter.mp member).1
  bounded := fun row member => table.bounded row (List.mem_filter.mp member).1
  started := table.started

def mapRows (table : ProfileTable) (change : Profile → Profile)
    (same : ∀ row, (change row).id = row.id) : ProfileTable where
  rows := table.rows.map change
  sequence := table.sequence
  ordered := by
    rw [List.pairwise_map]
    simpa only [same] using table.ordered
  positive := by
    intro row member
    obtain ⟨old, oldMember, result⟩ := List.mem_map.mp member
    rw [← result, same]
    exact table.positive old oldMember
  bounded := by
    intro row member
    obtain ⟨old, oldMember, result⟩ := List.mem_map.mp member
    rw [← result, same]
    exact table.bounded old oldMember
  started := table.started

@[simp]
theorem write_rows (table : ProfileTable) (value : Profile) :
    (table.write value).rows = Rows.replace Profile.id value table.rows := rfl

@[simp]
theorem erase_rows (table : ProfileTable) (id : Int) :
    (table.erase id).rows = Rows.remove Profile.id id table.rows := rfl

theorem get_eq_some_iff (table : ProfileTable) {id : Int} {row : Profile} :
    table.get id = some row ↔ row ∈ table.rows ∧ row.id = id :=
  Rows.lookup_eq_some_iff table.ids_nodup

theorem eq_of_id_eq (table : ProfileTable) {first second : Profile}
    (firstMember : first ∈ table.rows) (secondMember : second ∈ table.rows)
    (same : first.id = second.id) : first = second :=
  Rows.eq_of_key_eq table.ids_nodup firstMember secondMember same

/-- The rows after overwriting an existing one. -/
theorem mem_write (table : ProfileTable) {value old row : Profile} (member : old ∈ table.rows)
    (same : old.id = value.id) :
    row ∈ (table.write value).rows ↔ row = value ∨ (row ∈ table.rows ∧ row.id ≠ value.id) := by
  constructor
  · exact Rows.mem_replace
  · rintro (here | ⟨other, differs⟩)
    · rw [here]
      exact Rows.mem_replace_self member same
    · exact Rows.mem_replace_of_ne other differs

/-- An existing key selects exactly one row. -/
theorem filter_id_length (table : ProfileTable) {row : Profile} (member : row ∈ table.rows) :
    (table.rows.filter (fun other => decide (other.id = row.id))).length = 1 := by
  have counted : (table.rows.filter (fun other => decide (other.id = row.id))).length =
      (table.rows.map Profile.id).count row.id := by
    rw [List.count_eq_length_filter, List.filter_map, List.length_map]
    rfl
  rw [counted]
  exact List.count_eq_one_of_mem table.ids_nodup (List.mem_map_of_mem member)

/-- A new profile comes last in the user's order. -/
theorem lt_nextOrder (table : ProfileTable) {row : Profile} (member : row ∈ table.rows) :
    row.userOrder < table.nextOrder.getD 0 := by
  have listed : row.userOrder ∈ table.rows.map Profile.userOrder := List.mem_map_of_mem member
  rw [nextOrder]
  cases largest : (table.rows.map Profile.userOrder).max? with
  | none =>
      rw [List.max?_eq_none_iff.mp largest] at listed
      cases listed
  | some order =>
      have bound := (List.max?_eq_some_iff.mp largest).2 _ listed
      exact Int.lt_add_one_of_le bound

end ProfileTable

/-! ## Profile manager -/

namespace ProfileManager

/-- Store a profile at the end of the user's order; the stored profile is
returned with its new key. -/
def createProfile (table : ProfileTable) (profile : Profile) : Profile × ProfileTable :=
  let ordered := { profile with id := 0, userOrder := table.nextOrder.getD 0 }
  let created := table.create ordered
  ({ ordered with id := created.1 }, created.2)

def updateProfile (table : ProfileTable) (profile : Profile) : Option ProfileTable :=
  let updated := table.update profile
  if updated.1 = 1 then some updated.2 else none

def delProfile (table : ProfileTable) (id : Int) : Option ProfileTable :=
  let deleted := table.delete id
  if deleted.1 = 1 then some deleted.2 else none

theorem createProfile_id (table : ProfileTable) (profile : Profile) :
    (createProfile table profile).1.id = table.sequence + 1 := rfl

theorem createProfile_sequence (table : ProfileTable) (profile : Profile) :
    (createProfile table profile).2.sequence = table.sequence + 1 := rfl

theorem createProfile_rows (table : ProfileTable) (profile : Profile) :
    (createProfile table profile).2.rows = table.rows ++ [(createProfile table profile).1] := rfl

/-- Updating a profile whose row exists succeeds. -/
theorem updateProfile_of_mem {table : ProfileTable} {profile row : Profile}
    (member : row ∈ table.rows) (same : row.id = profile.id) :
    updateProfile table profile = some (table.write profile) := by
  have count := table.filter_id_length member
  rw [same] at count
  simp only [updateProfile, ProfileTable.update, count, ↓reduceIte]

/-- Without a row the check of an update fails. -/
theorem updateProfile_of_not_mem {table : ProfileTable} {profile : Profile}
    (absent : ∀ row ∈ table.rows, row.id ≠ profile.id) : updateProfile table profile = none := by
  have nobody : table.rows.filter (fun row => decide (row.id = profile.id)) = [] := by
    rw [List.filter_eq_nil_iff]
    intro row member
    simpa using absent row member
  simp [updateProfile, ProfileTable.update, nobody]

/-- What a new profile looks like depends only on the order and the keys in use. -/
theorem createProfile_congr {first second : ProfileTable}
    (orders : first.rows.map Profile.userOrder = second.rows.map Profile.userOrder)
    (sequence : first.sequence = second.sequence) (profile : Profile) :
    (createProfile first profile).1 = (createProfile second profile).1 := by
  simp only [createProfile, ProfileTable.create, ProfileTable.nextOrder, orders, sequence]

/-- Deleting an existing profile succeeds. -/
theorem delProfile_of_mem {table : ProfileTable} {row : Profile} (member : row ∈ table.rows) :
    delProfile table row.id = some (table.erase row.id) := by
  simp only [delProfile, ProfileTable.delete, table.filter_id_length member, ↓reduceIte]

end ProfileManager

end AlienConnection.Database
