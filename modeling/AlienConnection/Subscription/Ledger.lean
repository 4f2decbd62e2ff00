import AlienConnection.Database.SinkRules
import AlienConnection.Subscription.SubscriptionService

/-!
# Two tables

What a synchronisation means, without objects, maps and a write-back: one table
as it will be at the end and one as it is stored now. A profile of a document is
offered to the first; both get the profiles that are created and the links that
are set. Between the two tables lie exactly the changes that wait to be written.
-/

namespace AlienConnection.Subscription

open Database Library

/-- A profile that belongs to the subscriptions. -/
def managed (profile : Profile) : Bool := decide (profile.subscription ≠ .userConfigured)

theorem obsolete_of_managed {profile : Profile} (isManaged : managed profile = true)
    (other : profile.subscription ≠ .active) : profile.subscription = .obsolete := by
  cases status : profile.subscription with
  | active => exact absurd status other
  | obsolete => rfl
  | userConfigured => simp [managed, status] at isManaged

/-- The managed profile filed under a key. -/
def holder (table : ProfileTable) (key : Option String × String) : Option Profile :=
  table.rows.find? (fun row => managed row && decide (row.subscriptionKey = key))

/-- A managed profile is kept when no managed profile before it has its key. -/
def kept (table : ProfileTable) (row : Profile) : Bool :=
  !managed row || table.rows.all (fun other =>
    !(managed other && decide (other.subscriptionKey = row.subscriptionKey)) ||
      decide (row.id ≤ other.id))

def retire (profile : Profile) : Profile :=
  if profile.subscription = .active then { profile with subscription := .obsolete } else profile

theorem retire_id (profile : Profile) : (retire profile).id = profile.id := by
  unfold retire
  split <;> rfl

theorem not_active_retire (row : Profile) : (retire row).subscription ≠ .active := by
  unfold retire
  split
  next => exact SubscriptionStatus.noConfusion
  next other => exact other

structure Ledger where
  memory : ProfileTable
  stored : ProfileTable

namespace Ledger

def start (table : ProfileTable) : Ledger where
  memory := (table.restrict (kept table)).mapRows retire retire_id
  stored := table.restrict (kept table)

/-- Offer a profile: its obsolete counterpart takes it over, an active one stays,
and without a counterpart it is created. -/
def offer (ledger : Ledger) (it : Profile) : Int × Ledger :=
  match holder ledger.memory it.subscriptionKey with
  | some oldProfile =>
      if oldProfile.subscription = .active then (oldProfile.id, ledger)
      else (oldProfile.id,
        { ledger with memory := ledger.memory.write (takeOver oldProfile it) })
  | none =>
      let active := { it with subscription := .active }
      ((ProfileManager.createProfile ledger.memory active).1.id,
        { memory := (ProfileManager.createProfile ledger.memory active).2
          stored := (ProfileManager.createProfile ledger.stored active).2 })

def link (ledger : Ledger) (id target : Int) : Ledger × Bool :=
  match ledger.memory.get id with
  | none => (ledger, false)
  | some profile =>
      ({ memory := ledger.memory.write { profile with udpFallback := some target }
         stored := ledger.stored.write { profile with udpFallback := some target } }, true)

def sink : ProfileSink Ledger where
  create := offer
  getAllProfiles := fun ledger => ledger.stored.rows
  setFallback := link

def absorb (runtime : Runtime) (feature : Option Profile) (ledger : Ledger) :
    Option Json → Ledger
  | none => ledger
  | some json => (JsonParser.parseJson sink runtime feature json ledger).1

def run (runtime : Runtime) (feature : Option Profile) (table : ProfileTable)
    (jsons : List (Option Json)) : Ledger :=
  jsons.foldl (absorb runtime feature) (start table)

end Ledger

/-- The current profile after a synchronisation: none when its row was dropped. -/
def remainingId (table : ProfileTable) (currentId : Int) : Int :=
  if table.rows.any (fun row => decide (row.id = currentId) && !kept table row) then 0
  else currentId

/-! ## Rows that stay the same profile -/

def place (profile : Profile) : Int × Int := (profile.id, profile.userOrder)

/-- Two versions of one row: all columns agree but those a document provides. -/
structure SameRow (row version : Profile) : Prop where
  columns : version = { row with
    password := version.password
    method := version.method
    plugin := version.plugin
    udpFallback := version.udpFallback
    subscription := version.subscription }
  managed : managed version = managed row

namespace SameRow

theorem refl (row : Profile) : SameRow row row := ⟨rfl, rfl⟩

theorem id {row version : Profile} (same : SameRow row version) : version.id = row.id := by
  rw [same.columns]

theorem subscriptionKey {row version : Profile} (same : SameRow row version) :
    version.subscriptionKey = row.subscriptionKey := by
  rw [same.columns]
  rfl

theorem retire (row : Profile) : SameRow row (retire row) := by
  unfold Subscription.retire
  split
  next active => exact ⟨rfl, by simp [Subscription.managed, active]⟩
  next => exact refl row

theorem takeOver {row it : Profile} (isManaged : Subscription.managed row = true) :
    SameRow row (takeOver row it) :=
  ⟨rfl, by rw [isManaged]; rfl⟩

theorem link (row : Profile) (target : Option Int) :
    SameRow row { row with udpFallback := target } := ⟨rfl, rfl⟩

theorem place {row version : Profile} (same : SameRow row version) :
    Subscription.place row = Subscription.place version := by
  rw [same.columns]
  rfl

end SameRow

/-! ## Looking up a holder -/

theorem holder_mem {table : ProfileTable} {key : Option String × String} {row : Profile}
    (found : holder table key = some row) :
    row ∈ table.rows ∧ managed row = true ∧ row.subscriptionKey = key := by
  have matched := List.find?_some found
  rw [Bool.and_eq_true, decide_eq_true_iff] at matched
  exact ⟨List.mem_of_find?_eq_some found, matched⟩

theorem holder_eq_none {table : ProfileTable} {key : Option String × String}
    (missing : holder table key = none) {row : Profile} (member : row ∈ table.rows)
    (isManaged : managed row = true) : row.subscriptionKey ≠ key := by
  intro same
  have refused := List.find?_eq_none.mp missing row member
  rw [isManaged, decide_eq_true same] at refused
  exact refused rfl

/-! ## The profiles that are kept -/

theorem kept_of_user (table : ProfileTable) {row : Profile} (user : managed row = false) :
    kept table row = true := by
  simp [kept, user]

/-- A kept profile comes before all managed profiles with its key. -/
theorem kept_le {table : ProfileTable} {row other : Profile} (isKept : kept table row = true)
    (rowManaged : managed row = true) (member : other ∈ table.rows)
    (otherManaged : managed other = true)
    (same : other.subscriptionKey = row.subscriptionKey) : row.id ≤ other.id := by
  rw [kept, rowManaged, Bool.not_true, Bool.false_or, List.all_eq_true] at isKept
  have before := isKept other member
  rw [otherManaged, decide_eq_true same] at before
  simpa using before

/-- The managed profile found under a key is a kept one. -/
theorem kept_of_holder {table : ProfileTable} {key : Option String × String} {row : Profile}
    (found : holder table key = some row) : kept table row = true := by
  obtain ⟨_, isManaged, sameKey⟩ := holder_mem found
  obtain ⟨_, earlier, later, split, refused⟩ := List.find?_eq_some_iff_append.mp found
  rw [kept, isManaged, Bool.not_true, Bool.false_or, List.all_eq_true]
  intro other member
  have ordered := table.ordered
  rw [split] at member ordered
  rw [List.pairwise_append, List.pairwise_cons] at ordered
  rcases List.mem_append.mp member with before | after
  · have different := refused other before
    rw [← sameKey] at different
    rw [Bool.not_eq_true'] at different
    rw [different]
    rfl
  · rcases List.mem_cons.mp after with here | behind
    · rw [here]
      simp
    · have less := ordered.2.1.1 other behind
      simp [Int.le_of_lt less]

end AlienConnection.Subscription
