import AlienConnection.Database.ProfileImport
import AlienConnection.Database.ProfileObjects
import Mathlib.Data.List.Forall2

/-!
# Replacing all profiles

`createProfilesFromJson` with `replace` set. What an import offers to the table can be told
from its inputs alone: the profiles of every input that is read, and after them the
fallbacks for which nothing offered so far stands. The table is cleared when the first of
them arrives.
-/

namespace AlienConnection.Database

open Library

/-! ## What the inputs offer -/

namespace ImportState

section

variable (runtime : Runtime) (feature : Option Profile)

def readInput : Option Json → Option (List (Profile × Option Profile))
  | none => none
  | some json => (JsonParser.described runtime feature json).toOption

end

/-- What has been offered after one more input: its profiles, and the fallbacks that none of
the profiles so far stands for. -/
def offers (earlier : List Profile) (found : List (Profile × Option Profile)) : List Profile :=
  let profiles := earlier ++ found.map Prod.fst
  profiles ++ JsonParser.unmatched profiles (JsonParser.fallbacksOf found)

def offered (inputs : List (List (Profile × Option Profile))) : List Profile :=
  inputs.foldl offers []

/-! ## Counting how often the table is cleared -/

/-- How often the callback clears the table: `lazyClear` runs once. -/
def clears (profiles : Option (List (String × Profile))) (state : ImportState) : Nat :=
  match profiles with
  | none => 0
  | some _ => if state.cleared then 0 else 1

def counting (profiles : Option (List (String × Profile))) : ProfileSink (ImportState × Nat) where
  create := fun state it =>
    ((create profiles state.1 it).1, (create profiles state.1 it).2,
      state.2 + clears profiles state.1)
  getAllProfiles := fun state => state.1.table.listAll
  setFallback := fun state id target =>
    (((setFallback state.1 id target).1, state.2), (setFallback state.1 id target).2)

def absorbInto {σ : Type} (sink : ProfileSink σ) (runtime : Runtime) (feature : Option Profile)
    (done : σ × Bool) : Option Json → σ × Bool
  | none => (done.1, false)
  | some json =>
      let parsed := JsonParser.parseJson sink runtime feature json done.1
      (parsed.1, done.2 && parsed.2)

end ImportState

namespace ProfileManager

def countedImport (runtime : Runtime) (profileId : Int) (table : ProfileTable)
    (jsons : List (Option Json)) : (ImportState × Nat) × Bool :=
  jsons.foldl (ImportState.absorbInto (ImportState.counting (some (byAddress table))) runtime
    (selectedRow (byAddress table) profileId)) (({ table := table }, 0), true)

def lastAt (table : ProfileTable) (address : String) : Option Profile :=
  (table.rows.filter (fun row => decide (row.formattedAddress = address))).getLast?

/-- A row as an offered profile is stored, with the counters of the old profile that had its
address. The link to a fallback is not part of what was offered. -/
def CarriesOver (table : ProfileTable) (profile row : Profile) : Prop :=
  row = { profile with
    id := row.id
    userOrder := row.userOrder
    udpFallback := row.udpFallback
    tx := ((lastAt table profile.formattedAddress).map Profile.tx).getD profile.tx
    rx := ((lastAt table profile.formattedAddress).map Profile.rx).getD profile.rx }

theorem carryOver_byAddress (table : ProfileTable) (profile : Profile) :
    ImportState.carryOver (byAddress table) profile =
      { profile with
        tx := ((lastAt table profile.formattedAddress).map Profile.tx).getD profile.tx
        rx := ((lastAt table profile.formattedAddress).map Profile.rx).getD profile.rx } := by
  have found : LinkedMap.get profile.formattedAddress (byAddress table) =
      lastAt table profile.formattedAddress := by
    rw [byAddress, LinkedMap.get_foldl_name, LinkedMap.get, Option.or_none]
    rfl
  rw [ImportState.carryOver, found]
  cases lastAt table profile.formattedAddress <;> rfl

theorem CarriesOver.fallbackMatches {table : ProfileTable} {profile row : Profile}
    (carries : CarriesOver table profile row) (fallback : Profile) :
    fallback.fallbackMatches row = fallback.fallbackMatches profile := by
  rw [carries]
  rfl

/-- Linking a row is no matter of what was offered. -/
theorem CarriesOver.link {table : ProfileTable} {profile row : Profile}
    (carries : CarriesOver table profile row) (udpFallback : Option Int) :
    CarriesOver table profile { row with udpFallback := udpFallback } := by
  rw [CarriesOver] at carries ⊢
  rw [carries]

end ProfileManager

namespace ImportState

open ProfileManager

/-! ## The invariant of an import -/

structure Replaced (table : ProfileTable) (offered : List Profile) (state : ImportState × Nat) :
    Prop where
  stored : Offered offered state.1
  untouched : offered = [] → state = ({ table := table }, 0)
  counted : offered ≠ [] → state.2 = 1
  rows : offered ≠ [] → List.Forall₂ (CarriesOver table) offered state.1.table.rows

variable {table : ProfileTable} {offered : List Profile} {state : ImportState × Nat}

theorem replaced_start (table : ProfileTable) : Replaced table [] ({ table := table }, 0) :=
  ⟨offered_start table, fun _ => rfl, fun some => absurd rfl some, fun some => absurd rfl some⟩

/-- A profile is stored behind those that were offered before. -/
theorem forall₂_createProfile {stored : ProfileTable}
    (matched : List.Forall₂ (CarriesOver table) offered stored.rows) (profile : Profile) :
    List.Forall₂ (CarriesOver table) (offered ++ [profile])
      (createProfile stored (carryOver (byAddress table) profile)).2.rows := by
  rw [createProfile_rows]
  refine List.rel_append matched (List.Forall₂.cons ?_ List.Forall₂.nil)
  rw [CarriesOver, createProfile, carryOver_byAddress]

theorem Replaced.create (holds : Replaced table offered state) (profile : Profile) :
    ((counting (some (byAddress table))).create state profile).2.2 = 1 ∧
      List.Forall₂ (CarriesOver table) (offered ++ [profile])
        ((counting (some (byAddress table))).create state profile).2.1.table.rows := by
  by_cases first : offered = []
  · rw [holds.untouched first, first]
    dsimp only [counting]
    rw [create_uncleared rfl, create_cleared rfl]
    refine ⟨rfl, forall₂_createProfile ?_ profile⟩
    rw [clear_rows]
    exact List.Forall₂.nil
  · have cleared := holds.stored.cleared first
    dsimp only [counting]
    rw [create_cleared cleared, clears, if_pos cleared]
    exact ⟨holds.counted first, forall₂_createProfile (holds.rows first) profile⟩

theorem keeps_replaced (table : ProfileTable) :
    JsonParser.Keeps (counting (some (byAddress table))) (Replaced table)
      (fun state => Known state.1) where
  create := by
    intro offered state profile fresh holds
    obtain ⟨next, answered, kept⟩ := (keeps_offered (byAddress table)).create fresh holds.stored
    obtain ⟨counted, rows⟩ := holds.create profile
    have some : offered ++ [profile] ≠ [] := List.append_ne_nil_of_right_ne_nil _ (by simp)
    exact ⟨⟨next, fun none => absurd none some, fun _ => counted, fun _ => rows⟩, answered, kept⟩
  setFallback := by
    intro offered state id target holds known
    obtain ⟨flag, next, kept⟩ := (keeps_offered (byAddress table)).setFallback holds.stored known
    have some : offered ≠ [] := by
      intro none
      rw [holds.untouched none] at known
      cases known.1
    refine ⟨flag, ⟨next, fun none => absurd none some, fun _ => holds.counted some, fun _ => ?_⟩,
      kept⟩
    obtain ⟨_, row, member, rfl⟩ := known
    dsimp only [counting]
    rw [setFallback_of_mem member, ProfileTable.write_rows, Rows.replace]
    -- the replaced row differs from the old one in its link only
    have linked : ∀ old ∈ state.1.table.rows,
        (if old.id = row.id then { row with udpFallback := Option.some target } else old) =
          { old with
            udpFallback := if old.id = row.id then Option.some target else old.udpFallback } := by
      intro old inside
      by_cases same : old.id = row.id
      · rw [if_pos same, if_pos same, state.1.table.eq_of_id_eq inside member same]
      · rw [if_neg same, if_neg same]
    rw [List.map_congr_left linked, List.forall₂_map_right_iff]
    exact (holds.rows some).imp (fun _ _ carries => carries.link _)

/-! ## One input -/

/-- Fallbacks are looked up among the rows of what was offered. -/
theorem unmatched_rows {rows : List Profile}
    (matched : List.Forall₂ (CarriesOver table) offered rows) (fallbacks : List Profile) :
    JsonParser.unmatched rows fallbacks = JsonParser.unmatched offered fallbacks := by
  unfold JsonParser.unmatched
  apply List.filter_congr
  intro fallback _
  induction matched with
  | nil => rfl
  | cons carries _ ih =>
      rw [List.find?_cons, List.find?_cons, carries.fallbackMatches]
      split
      · rfl
      · exact ih

section

variable {runtime : Runtime} {feature : Option Profile} {json : Json}
  {found : List (Profile × Option Profile)}

theorem numbers_counting (profiles : Option (List (String × Profile))) :
    JsonParser.Numbers (counting profiles) (fun state => state.1.table.sequence) :=
  ⟨fun state profile => (numbers profiles).answer state.1 profile,
    fun state profile => (numbers profiles).last state.1 profile⟩

/-- Where something was offered, the table lists it. Otherwise there is no fallback either. -/
theorem unmatched_fallbacksOf (created : Replaced table (offered ++ found.map Prod.fst) state) :
    JsonParser.unmatched state.1.table.listAll (JsonParser.fallbacksOf found) =
      JsonParser.unmatched (offered ++ found.map Prod.fst) (JsonParser.fallbacksOf found) := by
  by_cases none : offered ++ found.map Prod.fst = []
  · rw [JsonParser.fallbacksOf, (List.append_eq_nil_iff.mp none).2]
    rfl
  · exact unmatched_rows (created.rows none) _

/-- An input that is read is stored completely. -/
theorem Replaced.parseJson (holds : Replaced table offered state)
    (describes : JsonParser.described runtime feature json = .ok found) :
    let parsed :=
      JsonParser.parseJson (counting (some (byAddress table))) runtime feature json state
    parsed.2 = true ∧ Replaced table (offers offered found) parsed.1 := by
  have wellFormed := JsonParser.wellFormed_of_described describes
  have profiles : (JsonParser.collect found {}).profiles = found.map Prod.fst :=
    JsonParser.profiles_collect
  obtain ⟨created, ready⟩ := (keeps_replaced table).createAll _ wellFormed.profiles holds
    (wellFormed.ready _) (fun entry member => List.mem_map_of_mem member)
  rw [profiles] at created ready
  have entries := JsonParser.storedFallbacks_of_ready (fun entry member => (ready entry member).1)
  rw [JsonParser.storedFallbacks_createAll (numbers_counting _) wellFormed] at entries
  simp only [JsonParser.parseJson_of_described describes]
  generalize JsonParser.createAll (counting (some (byAddress table)))
    (JsonParser.collect found {}).fallbackMap state (found.map Prod.fst) = made at *
  obtain ⟨flag, last⟩ := (keeps_replaced table).finalizeAll_offers made.2.1.table.listAll made.1
    created (fun entry member => (ready entry member).1)
  rw [← entries, unmatched_fallbacksOf created] at last
  exact ⟨flag, last⟩

/-! ## All inputs -/

/-- An input that cannot be read changes nothing, and the import goes on behind it. -/
theorem Replaced.absorb (holds : Replaced table offered state) (ok : Bool) (json : Option Json) :
    let done := absorbInto (counting (some (byAddress table))) runtime feature (state, ok) json
    Replaced table ((readInput runtime feature json).toList.foldl offers offered) done.1 ∧
      done.2 = (ok && (readInput runtime feature json).isSome) := by
  cases json with
  | none => exact ⟨holds, (Bool.and_false ok).symm⟩
  | some json =>
      dsimp only [absorbInto, readInput]
      cases describes : JsonParser.described runtime feature json with
      | error message =>
          rw [JsonParser.parseJson, JsonParser.process_eq, describes]
          exact ⟨holds, rfl⟩
      | ok found =>
          obtain ⟨flag, next⟩ := holds.parseJson describes
          rw [flag]
          exact ⟨next, rfl⟩

theorem Replaced.inputs (holds : Replaced table offered state) (ok : Bool)
    (jsons : List (Option Json)) :
    let done := jsons.foldl (absorbInto (counting (some (byAddress table))) runtime feature)
      (state, ok)
    Replaced table ((jsons.filterMap (readInput runtime feature)).foldl offers offered) done.1 ∧
      done.2 = (ok && jsons.all (fun json => (readInput runtime feature json).isSome)) := by
  induction jsons generalizing offered state ok with
  | nil => exact ⟨holds, (Bool.and_true ok).symm⟩
  | cons json rest ih =>
      obtain ⟨next, flag⟩ := @Replaced.absorb table offered state runtime feature holds ok json
      obtain ⟨last, done⟩ := ih next (ok && (readInput runtime feature json).isSome)
      rw [← flag] at last done
      refine ⟨?_, ?_⟩
      · rw [List.filterMap_cons]
        cases read : readInput runtime feature json with
        | none =>
            rw [read] at last
            exact last
        | some found =>
            rw [read] at last
            exact last
      · rw [List.all_cons, ← Bool.and_assoc, ← flag]
        exact done

/-! ## The count is only a count -/

theorem simulates_counting (profiles : Option (List (String × Profile))) :
    JsonParser.Simulates (sink profiles) (counting profiles)
      (fun plain counted => plain = counted.1) (fun _ _ => True) where
  create := by
    rintro plain counted profile _ rfl
    exact ⟨rfl, rfl, trivial, fun _ _ => trivial⟩
  getAllProfiles := by
    rintro plain counted rfl
    rfl
  setFallback := by
    rintro plain counted id target rfl _
    exact ⟨rfl, rfl, fun _ _ => trivial⟩

theorem absorb_counting (profiles : Option (List (String × Profile))) (state : ImportState × Nat)
    (ok : Bool) (json : Option Json) :
    let counted := absorbInto (counting profiles) runtime feature (state, ok) json
    absorb runtime profiles feature (state.1, ok) json = (counted.1.1, counted.2) := by
  cases json with
  | none => rfl
  | some json =>
      obtain ⟨flag, same⟩ := (simulates_counting profiles).parseJson runtime feature json
        (rfl : state.1 = state.1)
      dsimp only [absorb, absorbInto]
      rw [flag, same]

theorem foldl_absorb_counting (profiles : Option (List (String × Profile)))
    (state : ImportState × Nat) (ok : Bool) (jsons : List (Option Json)) :
    let counted := jsons.foldl (absorbInto (counting profiles) runtime feature) (state, ok)
    jsons.foldl (absorb runtime profiles feature) (state.1, ok) = (counted.1.1, counted.2) := by
  induction jsons generalizing state ok with
  | nil => rfl
  | cons json rest ih =>
      dsimp only [List.foldl_cons]
      rw [absorb_counting]
      exact ih _ _

end

/-- Nothing is offered exactly if no input has a profile. -/
theorem offered_eq_nil_iff (inputs : List (List (Profile × Option Profile))) :
    ImportState.offered inputs = [] ↔ ∀ found ∈ inputs, found = [] := by
  have grows (earlier : List Profile) (found : List (Profile × Option Profile)) :
      offers earlier found = [] ↔ earlier = [] ∧ found = [] := by
    constructor
    · intro none
      obtain ⟨first, second⟩ := List.append_eq_nil_iff.mp (List.append_eq_nil_iff.mp none).1
      exact ⟨first, List.map_eq_nil_iff.mp second⟩
    · rintro ⟨rfl, rfl⟩
      rfl
  have run (earlier : List Profile) : inputs.foldl offers earlier = [] ↔
      earlier = [] ∧ ∀ found ∈ inputs, found = [] := by
    induction inputs generalizing earlier with
    | nil => simp
    | cons found rest ih => rw [List.foldl_cons, ih, grows, List.forall_mem_cons, and_assoc]
  rw [ImportState.offered, run, and_iff_right rfl]

end ImportState

namespace ProfileManager

theorem createProfilesFromJson_eq (runtime : Runtime) (profileId : Int)
    (current : Option Profile) (table : ProfileTable) (jsons : List (Option Json)) :
    let counted := countedImport runtime profileId table jsons
    createProfilesFromJson runtime true profileId current table jsons =
      (counted.1.1.table, counted.2) := by
  dsimp only [createProfilesFromJson, countedImport, if_true]
  rw [ImportState.foldl_absorb_counting _ ({ table := table }, 0)]
  rfl

/-- A replacing import without a profile leaves the database alone. Any other one clears it
once, and leaves what its readable inputs offer, in their order. It reports a failure exactly
if an input cannot be read. -/
theorem createProfilesFromJson_replaces (runtime : Runtime) (profileId : Int)
    (current : Option Profile) (table : ProfileTable) (jsons : List (Option Json)) :
    let read := ImportState.readInput runtime (selectedRow (byAddress table) profileId)
    let inputs := jsons.filterMap read
    let clears := (countedImport runtime profileId table jsons).1.2
    let result := createProfilesFromJson runtime true profileId current table jsons
    ((∀ found ∈ inputs, found = []) → clears = 0 ∧ result.1 = table) ∧
      ((∃ found ∈ inputs, found ≠ []) → clears = 1 ∧
        List.Forall₂ (CarriesOver table) (ImportState.offered inputs) result.1.rows ∧
        result.1.rows.Pairwise (fun first second => first.userOrder < second.userOrder)) ∧
      (result.2 = true ↔ ∀ json ∈ jsons, (read json).isSome) := by
  obtain ⟨replaced, flag⟩ := @ImportState.Replaced.inputs table [] ({ table := table }, 0) runtime
    (selectedRow (byAddress table) profileId) (ImportState.replaced_start table) true jsons
  rw [← ImportState.offered] at replaced
  rw [createProfilesFromJson_eq]
  dsimp only
  refine ⟨?_, ?_, ?_⟩
  · intro none
    have same := replaced.untouched ((ImportState.offered_eq_nil_iff _).mpr none)
    rw [countedImport, same]
    exact ⟨rfl, rfl⟩
  · rintro ⟨found, listed, some⟩
    have nonempty := (ImportState.offered_eq_nil_iff _).not.mpr
      (fun none => some (none found listed))
    have cleared := replaced.stored.cleared nonempty
    exact ⟨replaced.counted nonempty, replaced.rows nonempty, replaced.stored.ordered cleared⟩
  · rw [countedImport, flag, Bool.true_and, List.all_eq_true]

end ProfileManager

end AlienConnection.Database
