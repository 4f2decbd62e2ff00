import AlienConnection.Subscription.Recording
import AlienConnection.Subscription.Refinement

/-!
# What a synchronisation does to the table

The result of a synchronisation is read off its log: who is untouched, who is
active, who is gone. A source that fails leaves no trace in the log, so nothing
distinguishes a profile it would have listed from one that is listed nowhere.
-/

namespace AlienConnection.Subscription

open Database Library

/-! ## What a document lists -/

section

variable (runtime : Runtime) (feature : Option Profile)

mutual

/-- The `udp_fallback` objects of a tree, in the places where the parser looks. -/
def fallbackObjects : Json → List Profile
  | .object members =>
      match JsonParser.tryParse runtime feature members with
      | .error _ => []
      | .ok (some (_, fallback)) => fallback.toList
      | .ok none => fallbackObjectsOfMembers members
  | .array items => fallbackObjectsOfItems items
  | _ => []

def fallbackObjectsOfMembers : List (String × Json) → List Profile
  | [] => []
  | (_, value) :: rest => fallbackObjects value ++ fallbackObjectsOfMembers rest

def fallbackObjectsOfItems : List Json → List Profile
  | [] => []
  | item :: rest => fallbackObjects item ++ fallbackObjectsOfItems rest

end

/-- The profile objects of a document; none when it does not parse. -/
def profilesOf : Option Json → List Profile
  | none => []
  | some json =>
      match JsonParser.process runtime feature {} json with
      | .error _ => []
      | .ok parser => parser.profiles

def fallbacksOf : Option Json → List Profile
  | none => []
  | some json => fallbackObjects runtime feature json

end

section

variable {runtime : Runtime} {feature : Option Profile}

mutual

/-- The fallback map holds nothing but `udp_fallback` objects of the tree. -/
theorem mem_fallbacks_process (json : Json) {parser result : JsonParser}
    (processed : JsonParser.process runtime feature parser json = .ok result)
    {fallback : Profile} (member : fallback ∈ result.fallbackMap.map Prod.snd) :
    fallback ∈ parser.fallbackMap.map Prod.snd ∨
      fallback ∈ fallbackObjects runtime feature json := by
  cases json with
  | object members =>
      simp only [JsonParser.process] at processed
      simp only [fallbackObjects]
      cases parsed : JsonParser.tryParse runtime feature members with
      | error message =>
          simp only [parsed] at processed
          cases processed
      | ok answer =>
          simp only [parsed] at processed
          cases answer with
          | none => exact mem_fallbacks_members members processed member
          | some pair =>
              obtain ⟨profile, found⟩ := pair
              cases processed
              exact JsonParser.mem_fallbacks_add member
  | array items =>
      rw [JsonParser.process] at processed
      rw [fallbackObjects]
      exact mem_fallbacks_items items processed member
  | null =>
      cases processed
      exact Or.inl member
  | bool value =>
      cases processed
      exact Or.inl member
  | string text =>
      cases processed
      exact Or.inl member
  | number text intValue =>
      cases processed
      exact Or.inl member

theorem mem_fallbacks_members (members : List (String × Json)) {parser result : JsonParser}
    (processed : JsonParser.processMembers runtime feature parser members = .ok result)
    {fallback : Profile} (member : fallback ∈ result.fallbackMap.map Prod.snd) :
    fallback ∈ parser.fallbackMap.map Prod.snd ∨
      fallback ∈ fallbackObjectsOfMembers runtime feature members := by
  match members with
  | [] =>
      cases processed
      exact Or.inl member
  | (name, value) :: rest =>
      rw [JsonParser.processMembers] at processed
      rw [fallbackObjectsOfMembers, List.mem_append]
      split at processed
      · cases processed
      next next done =>
        rcases mem_fallbacks_members rest processed member with before | later
        · exact (mem_fallbacks_process value done before).imp_right Or.inl
        · exact Or.inr (Or.inr later)

theorem mem_fallbacks_items (items : List Json) {parser result : JsonParser}
    (processed : JsonParser.processItems runtime feature parser items = .ok result)
    {fallback : Profile} (member : fallback ∈ result.fallbackMap.map Prod.snd) :
    fallback ∈ parser.fallbackMap.map Prod.snd ∨
      fallback ∈ fallbackObjectsOfItems runtime feature items := by
  match items with
  | [] =>
      cases processed
      exact Or.inl member
  | item :: rest =>
      rw [JsonParser.processItems] at processed
      rw [fallbackObjectsOfItems, List.mem_append]
      split at processed
      · cases processed
      next next done =>
        rcases mem_fallbacks_items rest processed member with before | later
        · exact (mem_fallbacks_process item done before).imp_right Or.inl
        · exact Or.inr (Or.inr later)

end

end

/-- The rows of a table without its later duplicates. -/
def baseOf (table : ProfileTable) : ProfileTable := table.restrict (kept table)

def syncLog (runtime : Runtime) (table : ProfileTable) (currentId : Int)
    (jsons : List (Option Json)) : Log :=
  Log.run (baseOf table) runtime (featureOf table currentId) jsons

/-- A synchronisation succeeds, and its result is described by its log. -/
theorem sync_rows (runtime : Runtime) (table : ProfileTable) (currentId : Int)
    (jsons : List (Option Json)) :
    ∃ result,
      createProfilesFromSubscription runtime table currentId jsons =
        some (result, remainingId table currentId) ∧
      result.rows = (syncLog runtime table currentId jsons).finalRows (baseOf table) ∧
      (syncLog runtime table currentId jsons).Sound (baseOf table) := by
  have records := run_records runtime (featureOf table currentId) table jsons
  exact ⟨_, sync_eq runtime table currentId jsons, records.memory, records.sound⟩

/-! ## What is offered -/

/-- One document offers its profiles, and besides them only fallbacks. -/
theorem offered_absorb {base : ProfileTable} (runtime : Runtime) (feature : Option Profile)
    (json : Option Json) {log : Log} (sound : log.Sound base) :
    ∃ extra,
      (log.absorb base runtime feature json).offered =
        log.offered ++ profilesOf runtime feature json ++ extra ∧
      (∀ profile ∈ extra, profile ∈ fallbacksOf runtime feature json) ∧
      (log.absorb base runtime feature json).Sound base := by
  cases json with
  | none => exact ⟨[], by simp [Log.absorb, profilesOf], fun _ none => (nomatch none), sound⟩
  | some json =>
      rw [profilesOf, Log.absorb]
      cases processed : JsonParser.process runtime feature {} json with
      | error message =>
          rw [JsonParser.parseJson, processed]
          exact ⟨[], by simp, fun _ none => (nomatch none), sound⟩
      | ok parser =>
          obtain ⟨_, extra, ⟨offered, next⟩, drawn⟩ :=
            (Log.keeps_sound base).parseJson processed ⟨rfl, sound⟩
          refine ⟨extra, offered, ?_, next⟩
          intro profile member
          exact (mem_fallbacks_process json processed (drawn profile member)).resolve_left
            List.not_mem_nil

/-- All documents. -/
theorem offered_foldl {base : ProfileTable} (runtime : Runtime) (feature : Option Profile)
    (jsons : List (Option Json)) {log : Log} (sound : log.Sound base) (profile : Profile) :
    (profile ∈ log.offered ∨ profile ∈ jsons.flatMap (profilesOf runtime feature) →
      profile ∈ (jsons.foldl (Log.absorb base runtime feature) log).offered) ∧
    (profile ∈ (jsons.foldl (Log.absorb base runtime feature) log).offered →
      profile ∈ log.offered ∨ profile ∈ jsons.flatMap (profilesOf runtime feature) ∨
        profile ∈ jsons.flatMap (fallbacksOf runtime feature)) := by
  induction jsons generalizing log with
  | nil =>
      constructor
      · rintro (before | none)
        · exact before
        · cases none
      · exact Or.inl
  | cons json rest ih =>
      obtain ⟨extra, offered, drawn, next⟩ := offered_absorb runtime feature json sound
      obtain ⟨included, bounded⟩ := ih next
      rw [offered] at included bounded
      simp only [List.mem_append, List.flatMap_cons] at included bounded ⊢
      constructor
      · rintro (before | here | later)
        · exact included (Or.inl (Or.inl (Or.inl before)))
        · exact included (Or.inl (Or.inl (Or.inr here)))
        · exact included (Or.inr later)
      · intro member
        rcases bounded member with ((before | here) | other) | later | later
        · exact Or.inl before
        · exact Or.inr (Or.inl (Or.inl here))
        · exact Or.inr (Or.inr (Or.inl (drawn profile other)))
        · exact Or.inr (Or.inl (Or.inr later))
        · exact Or.inr (Or.inr (Or.inr later))

section

variable {runtime : Runtime} {table : ProfileTable} {currentId : Int}
  {jsons : List (Option Json)}

theorem listed_of_profile {key : Option String × String}
    (listed : Listed (jsons.flatMap (profilesOf runtime (featureOf table currentId))) key) :
    Listed (syncLog runtime table currentId jsons).offered key := by
  obtain ⟨profile, member, sameKey⟩ := listed
  exact ⟨profile, (offered_foldl runtime _ jsons (Log.sound_empty _) profile).1 (Or.inr member),
    sameKey⟩

theorem listed_cases {key : Option String × String}
    (listed : Listed (syncLog runtime table currentId jsons).offered key) :
    Listed (jsons.flatMap (profilesOf runtime (featureOf table currentId))) key ∨
      Listed (jsons.flatMap (fallbacksOf runtime (featureOf table currentId))) key := by
  obtain ⟨profile, member, sameKey⟩ := listed
  rcases (offered_foldl runtime _ jsons (Log.sound_empty _) profile).2 member with
    none | inside | inside
  · cases none
  · exact Or.inl ⟨profile, inside, sameKey⟩
  · exact Or.inr ⟨profile, inside, sameKey⟩

end

/-! ## The merged table -/

def LaterDuplicate (table : ProfileTable) (row : Profile) : Prop :=
  managed row = true ∧ ∃ earlier ∈ table.rows, managed earlier = true ∧
    earlier.subscriptionKey = row.subscriptionKey ∧ earlier.id < row.id

theorem laterDuplicate_of_not_kept {table : ProfileTable} {row : Profile}
    (dropped : kept table row = false) : LaterDuplicate table row := by
  simp only [kept, Bool.or_eq_false_iff, Bool.not_eq_false', List.all_eq_false] at dropped
  obtain ⟨isManaged, earlier, member, refused⟩ := dropped
  simp only [Bool.or_eq_true, Bool.not_eq_true', decide_eq_true_eq, not_or, Bool.not_eq_false,
    Bool.and_eq_true, not_le] at refused
  exact ⟨isManaged, earlier, member, refused.1.1, refused.1.2, refused.2⟩

/-- The result of merging documents with the given profile objects and `udp_fallback`
objects into a table. -/
structure Merged (table result : ProfileTable) (profiles fallbacks : List Profile) : Prop where
  users : ∀ row : Profile, managed row = false → (row ∈ result.rows ↔ row ∈ table.rows)
  distinct : DistinctKeys result
  active : ∀ row ∈ result.rows, managed row = true →
    Listed profiles row.subscriptionKey → row.subscription = .active
  obsolete : ∀ row ∈ result.rows, managed row = true → ¬ Listed profiles row.subscriptionKey →
    ¬ Listed fallbacks row.subscriptionKey → row.subscription = .obsolete
  deleted : ∀ row ∈ table.rows, (∀ after ∈ result.rows, after.id ≠ row.id) →
    LaterDuplicate table row
  surviving : ∀ row ∈ table.rows, ∀ after ∈ result.rows, after.id = row.id →
    after.userOrder = row.userOrder ∧ after.tx = row.tx ∧ after.rx = row.rx

namespace Log

variable {table : ProfileTable} {log : Log}

theorem mem_finalRows {row : Profile} : row ∈ log.finalRows (baseOf table) ↔
    (∃ old ∈ table.rows, kept table old = true ∧ log.current old = row) ∨
      ∃ created ∈ log.created, log.linked created = row := by
  simp [finalRows, baseOf, ProfileTable.restrict, and_assoc]

theorem current_mem {row : Profile} (member : row ∈ table.rows) (isKept : kept table row = true) :
    log.current row ∈ log.finalRows (baseOf table) :=
  mem_finalRows.mpr (Or.inl ⟨row, member, isKept, rfl⟩)

/-- The row that a row of the table has become. -/
theorem origin (sound : log.Sound (baseOf table)) {row after : Profile}
    (member : row ∈ table.rows) (afterMember : after ∈ log.finalRows (baseOf table))
    (sameId : after.id = row.id) : kept table row = true ∧ after = log.current row := by
  rcases mem_finalRows.mp afterMember with ⟨old, oldMember, isKept, result⟩ |
    ⟨created, createdMember, result⟩
  · have oldId : old.id = row.id := by
      rw [← sameId, ← result, log.current_id]
    have equal := table.eq_of_id_eq oldMember member oldId
    rw [equal] at isKept result
    exact ⟨isKept, result.symm⟩
  · have above := (sound.numbered created createdMember).1
    have bound := table.bounded row member
    have createdId : created.id = row.id := by
      rw [← sameId, ← result]
      rfl
    have sequence : (baseOf table).sequence = table.sequence := rfl
    omega

theorem distinct_finalRows (sound : log.Sound (baseOf table)) {result : ProfileTable}
    (rows : result.rows = log.finalRows (baseOf table)) : DistinctKeys result := by
  have vacant : ∀ old ∈ table.rows, kept table old = true → managed old = true →
      ∀ created ∈ log.created, old.subscriptionKey ≠ created.subscriptionKey := by
    intro old member isKept isManaged created createdMember
    exact holder_eq_none (sound.vacant created createdMember)
      (List.mem_filter.mpr ⟨member, isKept⟩) isManaged
  intro row rowMember other otherMember rowManaged otherManaged sameKey
  rw [rows] at rowMember otherMember
  rcases mem_finalRows.mp rowMember with ⟨old, oldMember, oldKept, rfl⟩ |
    ⟨created, createdMember, rfl⟩ <;>
  rcases mem_finalRows.mp otherMember with ⟨old', oldMember', oldKept', rfl⟩ |
    ⟨created', createdMember', rfl⟩
  · rw [(log.sameRow_current old).subscriptionKey,
      (log.sameRow_current old').subscriptionKey] at sameKey
    rw [(log.sameRow_current old).managed] at rowManaged
    rw [(log.sameRow_current old').managed] at otherManaged
    rw [distinctKeys_kept table old (List.mem_filter.mpr ⟨oldMember, oldKept⟩) old'
      (List.mem_filter.mpr ⟨oldMember', oldKept'⟩) rowManaged otherManaged sameKey]
  · rw [(log.sameRow_current old).subscriptionKey] at sameKey
    rw [(log.sameRow_current old).managed] at rowManaged
    exact absurd sameKey (vacant old oldMember oldKept rowManaged created' createdMember')
  · rw [(log.sameRow_current old').subscriptionKey] at sameKey
    rw [(log.sameRow_current old').managed] at otherManaged
    exact absurd sameKey.symm (vacant old' oldMember' oldKept' otherManaged created createdMember)
  · have distinctKeys : (log.created.map Profile.subscriptionKey).Nodup :=
      List.pairwise_map.mpr sound.distinct
    rw [Rows.eq_of_key_eq distinctKeys createdMember createdMember' sameKey]

theorem status_finalRows (sound : log.Sound (baseOf table)) {row : Profile}
    (member : row ∈ log.finalRows (baseOf table)) (isManaged : managed row = true) :
    row.subscription = .active ↔ Listed log.offered row.subscriptionKey := by
  rcases mem_finalRows.mp member with ⟨old, _, _, rfl⟩ | ⟨created, createdMember, rfl⟩
  · rw [(log.sameRow_current old).managed] at isManaged
    rw [(log.sameRow_current old).subscriptionKey]
    exact log.current_active_iff isManaged
  · exact ⟨fun _ => sound.listed created createdMember,
      fun _ => sound.active created createdMember⟩

/-- Every key that was offered has a row in the result. -/
theorem exists_finalRows (sound : log.Sound (baseOf table)) {key : Option String × String}
    (listed : Listed log.offered key) :
    ∃ row ∈ log.finalRows (baseOf table), managed row = true ∧ row.subscriptionKey = key := by
  obtain ⟨it, member, rfl⟩ := listed
  rcases sound.covered it member with held | ⟨created, createdMember, sameKey⟩
  · obtain ⟨old, found⟩ := Option.isSome_iff_exists.mp held
    obtain ⟨inBase, isManaged, sameKey⟩ := holder_mem found
    obtain ⟨inside, isKept⟩ := List.mem_filter.mp inBase
    have same := log.sameRow_current old
    exact ⟨log.current old, current_mem inside isKept, same.managed.trans isManaged,
      same.subscriptionKey.trans sameKey⟩
  · refine ⟨log.linked created, mem_finalRows.mpr (Or.inr ⟨created, createdMember, rfl⟩), ?_,
      sameKey⟩
    simp [managed, linked, sound.active created createdMember]

theorem users_finalRows (sound : log.Sound (baseOf table)) {row : Profile}
    (user : managed row = false) : row ∈ log.finalRows (baseOf table) ↔ row ∈ table.rows := by
  rw [mem_finalRows]
  constructor
  · rintro (⟨old, member, _, result⟩ | ⟨created, member, result⟩)
    · have oldUser : managed old = false := by
        rw [← (log.sameRow_current old).managed, result, user]
      rw [← result, log.current_user oldUser]
      exact member
    · rw [← result] at user
      simp [managed, linked, sound.active created member] at user
  · intro member
    exact Or.inl ⟨row, member, kept_of_user table user, log.current_user user⟩

end Log

/-- **Merging.** -/
theorem sync_merged (runtime : Runtime) (table : ProfileTable) (currentId : Int)
    (documents : List Json) :
    ∃ result profileId,
      createProfilesFromSubscription runtime table currentId (documents.map some) =
        some (result, profileId) ∧
      Merged table result
        ((documents.map some).flatMap (profilesOf runtime (featureOf table currentId)))
        ((documents.map some).flatMap (fallbacksOf runtime (featureOf table currentId))) := by
  obtain ⟨result, synced, rows, sound⟩ :=
    sync_rows runtime table currentId (documents.map some)
  refine ⟨result, remainingId table currentId, synced, ?_⟩
  constructor
  case users =>
    intro row user
    rw [rows]
    exact Log.users_finalRows sound user
  case distinct => exact Log.distinct_finalRows sound rows
  case active =>
    intro row member isManaged listed
    rw [rows] at member
    exact (Log.status_finalRows sound member isManaged).mpr (listed_of_profile listed)
  case obsolete =>
    intro row member isManaged noProfile noFallback
    rw [rows] at member
    refine obsolete_of_managed isManaged ?_
    intro active
    rcases listed_cases ((Log.status_finalRows sound member isManaged).mp active) with
      listed | listed
    · exact noProfile listed
    · exact noFallback listed
  case deleted =>
    intro row member gone
    refine laterDuplicate_of_not_kept ?_
    rw [← Bool.not_eq_true]
    intro isKept
    have inside : (syncLog runtime table currentId (documents.map some)).current row ∈
        result.rows := by
      rw [rows]
      exact Log.current_mem member isKept
    exact gone _ inside (Log.current_id _ row)
  case surviving =>
    intro row member after afterMember sameId
    rw [rows] at afterMember
    obtain ⟨_, result⟩ := Log.origin sound member afterMember sameId
    have same := Log.sameRow_current (syncLog runtime table currentId (documents.map some)) row
    rw [result, same.columns]
    exact ⟨rfl, rfl, rfl⟩

end AlienConnection.Subscription
