import AlienConnection.Database.ProfileTable
import AlienConnection.Database.SinkRules

/-!
# Importing profiles

`createProfilesFromJson` stores the profiles of documents. Where it replaces, the table is
cleared just before the first profile is stored, and traffic counters are taken over from
the profile that had the same address. The objects that it stores are not changed by
anybody else, so each one agrees with its row.
-/

namespace AlienConnection.Database

open Library

structure ImportState where
  table : ProfileTable
  cleared : Bool := false

namespace ImportState

/-- `clear`. The largest key stays on record. -/
def clear (state : ImportState) : ImportState where
  table := state.table.restrict (fun _ => false)
  cleared := true

def carryOver (profiles : List (String × Profile)) (it : Profile) : Profile :=
  match LinkedMap.get it.formattedAddress profiles with
  | none => it
  | some old => { it with tx := old.tx, rx := old.rx }

def create (profiles : Option (List (String × Profile))) (state : ImportState) (it : Profile) :
    Int × ImportState :=
  match profiles with
  | none =>
      let created := ProfileManager.createProfile state.table it
      (created.1.id, { state with table := created.2 })
  | some profiles =>
      let emptied := if state.cleared then state else state.clear
      let created := ProfileManager.createProfile emptied.table (carryOver profiles it)
      (created.1.id, { emptied with table := created.2 })

def setFallback (state : ImportState) (id target : Int) : ImportState × Bool :=
  match state.table.get id with
  | none => (state, false)
  | some profile =>
      match ProfileManager.updateProfile state.table { profile with udpFallback := some target } with
      | none => (state, false)
      | some table => ({ state with table := table }, true)

def sink (profiles : Option (List (String × Profile))) : ProfileSink ImportState where
  create := create profiles
  getAllProfiles := fun state => state.table.listAll
  setFallback := setFallback

def absorb (runtime : Runtime) (profiles : Option (List (String × Profile)))
    (feature : Option Profile) (done : ImportState × Bool) : Option Json → ImportState × Bool
  | none => (done.1, false)
  | some json =>
      let parsed := JsonParser.parseJson (sink profiles) runtime feature json done.1
      (parsed.1, done.2 && parsed.2)

end ImportState

namespace ProfileManager

/-- `associateBy`: of several profiles with one address the last one counts. -/
def byAddress (table : ProfileTable) : List (String × Profile) :=
  table.listAll.foldl (fun built row => LinkedMap.put row.formattedAddress row built) []

def selectedRow (profiles : List (String × Profile)) (profileId : Int) : Option Profile :=
  match (profiles.map Prod.snd).filter (fun row => row.id = profileId) with
  | [row] => some row
  | _ => none

/-- `createProfilesFromJson`: the table afterwards, and whether it returned normally.
`current` is the profile in use. -/
def createProfilesFromJson (runtime : Runtime) (replace : Bool) (profileId : Int)
    (current : Option Profile) (table : ProfileTable) (jsons : List (Option Json)) :
    ProfileTable × Bool :=
  let profiles := if replace then some (byAddress table) else none
  let feature :=
    match profiles with
    | none => current
    | some profiles => selectedRow profiles profileId
  let done := jsons.foldl (ImportState.absorb runtime profiles feature) ({ table := table }, true)
  (done.1.table, done.2)

end ProfileManager

/-! ## Storing -/

namespace ImportState

/-- A row as a parsed profile is stored: only the key, the order and the counters are
new. -/
def Stores (profile row : Profile) : Prop :=
  row = { profile with id := row.id, tx := row.tx, rx := row.rx, userOrder := row.userOrder }

variable {profiles : List (String × Profile)} {state : ImportState}

theorem clear_rows (state : ImportState) : state.clear.table.rows = [] := List.filter_false _

theorem stores_createProfile (profiles : List (String × Profile)) (table : ProfileTable)
    (profile : Profile) :
    Stores profile (ProfileManager.createProfile table (carryOver profiles profile)).1 := by
  rw [carryOver]
  split <;> rfl

theorem create_cleared (cleared : state.cleared = true) (profile : Profile) :
    create (some profiles) state profile =
      ((ProfileManager.createProfile state.table (carryOver profiles profile)).1.id,
        { state with
          table := (ProfileManager.createProfile state.table (carryOver profiles profile)).2 }) := by
  simp only [create, cleared, if_true]

theorem create_uncleared (uncleared : state.cleared = false) (profile : Profile) :
    create (some profiles) state profile = create (some profiles) state.clear profile := by
  simp only [create, uncleared, clear, Bool.false_eq_true, if_false, if_true]

theorem numbers (profiles : Option (List (String × Profile))) :
    JsonParser.Numbers (sink profiles) (fun state => state.table.sequence) := by
  constructor
  · intro state profile
    cases profiles with
    | none => rfl
    | some profiles => cases cleared : state.cleared <;> simp only [sink, create, cleared] <;> rfl
  · intro state profile
    cases profiles with
    | none => rfl
    | some profiles => cases cleared : state.cleared <;> simp only [sink, create, cleared] <;> rfl

/-- The table is cleared as soon as there is something to store. -/
theorem createAll_uncleared (uncleared : state.cleared = false)
    (fallbackMap : List (FallbackKey × Profile)) {parsed : List Profile} (nonempty : parsed ≠ []) :
    JsonParser.createAll (sink (some profiles)) fallbackMap state parsed =
      JsonParser.createAll (sink (some profiles)) fallbackMap state.clear parsed := by
  cases parsed with
  | nil => exact absurd rfl nonempty
  | cons profile rest =>
      have same : (sink (some profiles)).create state profile =
          (sink (some profiles)).create state.clear profile := create_uncleared uncleared profile
      rw [JsonParser.Numbers.createAll_cons, JsonParser.Numbers.createAll_cons,
        JsonParser.Numbers.mapAfter, JsonParser.Numbers.mapAfter, same]

/-- The rows of a cleared table after a document's profiles have been stored. -/
theorem createAll_rows (cleared : state.cleared = true)
    (fallbackMap : List (FallbackKey × Profile)) (parsed : List Profile) :
    ∃ rows, (JsonParser.createAll (sink (some profiles)) fallbackMap state parsed).2.table.rows =
        state.table.rows ++ rows ∧ rows.length = parsed.length ∧
      ∀ (index : Nat) (profile row : Profile), parsed[index]? = some profile →
        rows[index]? = some row →
        Stores profile row ∧ row.id = state.table.sequence + 1 + index := by
  induction parsed generalizing fallbackMap state with
  | nil => exact ⟨[], (List.append_nil _).symm, rfl, fun _ _ _ none => nomatch none⟩
  | cons first rest ih =>
      have step : (sink (some profiles)).create state first = _ := create_cleared cleared first
      rw [JsonParser.Numbers.createAll_cons, step]
      obtain ⟨rows, whole, lengths, each⟩ := @ih { state with
        table := (ProfileManager.createProfile state.table (carryOver profiles first)).2 } cleared
        (JsonParser.Numbers.mapAfter (sink (some profiles)) fallbackMap state first)
      refine ⟨(ProfileManager.createProfile state.table (carryOver profiles first)).1 :: rows,
        ?_, congrArg (· + 1) lengths, ?_⟩
      · rw [whole, ProfileManager.createProfile_rows, List.append_assoc]
        rfl
      · intro index profile row listed stored
        cases index with
        | zero =>
            cases listed
            cases stored
            refine ⟨stores_createProfile _ _ _, ?_⟩
            rw [ProfileManager.createProfile_id]
            omega
        | succ index =>
            obtain ⟨same, numbered⟩ := each index profile row listed stored
            refine ⟨same, ?_⟩
            rw [numbered, ProfileManager.createProfile_sequence]
            omega

/-! ## Linking -/

def link (listing : List Profile) (entries : List (FallbackKey × Profile)) (row : Profile) :
    Profile :=
  match LinkedMap.get (.stored row.id) entries with
  | none => row
  | some fallback =>
      { row with udpFallback := (listing.find? fallback.fallbackMatches).map Profile.id }

/-- Assigning the fallback of a row that exists. -/
theorem setFallback_of_mem {row : Profile} (member : row ∈ state.table.rows) (target : Int) :
    setFallback state row.id target =
      ({ state with table := state.table.write { row with udpFallback := some target } }, true) := by
  have found : state.table.get row.id = some row :=
    state.table.get_eq_some_iff.mpr ⟨member, rfl⟩
  have updated : ProfileManager.updateProfile state.table { row with udpFallback := some target } =
      some (state.table.write { row with udpFallback := some target }) :=
    ProfileManager.updateProfile_of_mem member rfl
  simp only [setFallback, found, updated]

/-- Where every fallback is among the stored profiles, all that happens is that rows are
linked. -/
theorem finalizeAll_rows (profiles : Option (List (String × Profile))) (listing : List Profile)
    {entries : List (FallbackKey × Profile)} (distinct : (LinkedMap.keys entries).Nodup)
    (known : ∀ entry ∈ entries, ∃ row ∈ state.table.rows, entry.1 = .stored row.id)
    (matched : ∀ entry ∈ entries, ∃ target, listing.find? entry.2.fallbackMatches = some target) :
    (JsonParser.finalizeAll (sink profiles) listing state entries).2 = true ∧
      (JsonParser.finalizeAll (sink profiles) listing state entries).1.table.rows =
        state.table.rows.map (link listing entries) := by
  induction entries generalizing state with
  | nil => exact ⟨rfl, (List.map_id _).symm⟩
  | cons entry rest ih =>
      obtain ⟨key, fallback⟩ := entry
      obtain ⟨row, member, rfl⟩ := known _ List.mem_cons_self
      obtain ⟨target, found⟩ : ∃ target, listing.find? fallback.fallbackMatches = some target :=
        matched _ List.mem_cons_self
      obtain ⟨absent, distinctRest⟩ := List.nodup_cons.mp distinct
      have assigned : (sink profiles).setFallback state row.id target.id = _ :=
        setFallback_of_mem member target.id
      have knownRest : ∀ entry ∈ rest, ∃ other ∈
          (state.table.write { row with udpFallback := some target.id }).rows,
          entry.1 = .stored other.id := by
        intro entry listed
        obtain ⟨old, inside, same⟩ := known entry (List.mem_cons_of_mem _ listed)
        have key : old.id ∈ (Rows.replace Profile.id { row with udpFallback := some target.id }
            state.table.rows).map Profile.id := by
          rw [Rows.map_key_replace]
          exact List.mem_map_of_mem inside
        obtain ⟨other, written, sameId⟩ := List.mem_map.mp key
        exact ⟨other, written, by rw [same, sameId]⟩
      obtain ⟨done, linked⟩ := @ih { state with
        table := state.table.write { row with udpFallback := some target.id } } distinctRest
        knownRest (fun entry listed => matched entry (List.mem_cons_of_mem _ listed))
      simp only [JsonParser.finalizeAll, JsonParser.resolve, found, assigned, if_true]
      refine ⟨done, ?_⟩
      rw [linked, ProfileTable.write_rows, Rows.replace, List.map_map]
      apply List.map_congr_left
      intro other inside
      rw [Function.comp_apply]
      by_cases same : other.id = row.id
      · cases state.table.eq_of_id_eq inside member same
        have last := LinkedMap.get_eq_none_iff.mpr absent
        rw [if_pos rfl, link, link, LinkedMap.get, if_pos rfl, last]
        dsimp only
        rw [found]
        rfl
      · have skipped : FallbackKey.stored row.id ≠ .stored other.id :=
          fun equal => same (FallbackKey.stored.inj equal).symm
        rw [if_neg same, link, link, LinkedMap.get, if_neg skipped]

/-! ## Rows of an import -/

/-- Rows that an import has stored stand in the user's order, and they have the passwords
of what was offered to it. -/
structure Offered (offered : List Profile) (state : ImportState) : Prop where
  cleared : offered ≠ [] → state.cleared = true
  passwords : state.cleared = true → ∀ row ∈ state.table.rows, ∃ profile ∈ offered,
    row.password = profile.password
  ordered : state.cleared = true →
    state.table.rows.Pairwise (fun first second => first.userOrder < second.userOrder)

def Known (state : ImportState) (id : Int) : Prop :=
  state.cleared = true ∧ ∃ row ∈ state.table.rows, row.id = id

theorem offered_create {offered : List Profile} (profile : Profile)
    (cleared : state.cleared = true) (holds : Offered offered state) :
    Offered (offered ++ [profile]) (create (some profiles) state profile).2 ∧
      Known (create (some profiles) state profile).2 (create (some profiles) state profile).1 ∧
      ∀ id, Known state id → Known (create (some profiles) state profile).2 id := by
  rw [create_cleared cleared]
  refine ⟨⟨fun _ => cleared, fun _ row member => ?_, fun _ => ?_⟩, ⟨cleared, ?_⟩, ?_⟩
  · rw [ProfileManager.createProfile_rows] at member
    rcases List.mem_append.mp member with before | here
    · obtain ⟨other, listed, same⟩ := holds.passwords cleared row before
      exact ⟨other, List.mem_append_left _ listed, same⟩
    · refine ⟨profile, List.mem_append_right _ List.mem_cons_self, ?_⟩
      have stores := stores_createProfile profiles state.table profile
      rw [← List.mem_singleton.mp here] at stores
      rw [stores]
  · rw [ProfileManager.createProfile_rows, List.pairwise_append]
    refine ⟨holds.ordered cleared, List.pairwise_singleton _ _, fun row member other here => ?_⟩
    rw [List.mem_singleton.mp here]
    exact state.table.lt_nextOrder member
  · rw [ProfileManager.createProfile_rows]
    exact ⟨_, List.mem_append_right _ List.mem_cons_self, rfl⟩
  · rintro id ⟨_, row, member, same⟩
    refine ⟨cleared, row, ?_, same⟩
    rw [ProfileManager.createProfile_rows]
    exact List.mem_append_left _ member

theorem keeps_offered (profiles : List (String × Profile)) :
    JsonParser.Keeps (sink (some profiles)) Offered Known where
  create := by
    intro offered state profile _ holds
    cases cleared : state.cleared with
    | true => exact offered_create profile cleared holds
    | false =>
        have same : (sink (some profiles)).create state profile =
            create (some profiles) state.clear profile := create_uncleared cleared profile
        have empty : Offered offered state.clear :=
          ⟨fun _ => rfl, fun _ row member => (nomatch clear_rows state ▸ member), fun _ => by
            rw [clear_rows]
            exact List.Pairwise.nil⟩
        obtain ⟨next, answered, _⟩ := offered_create profile rfl empty
        rw [same]
        exact ⟨next, answered, fun id known => nomatch cleared.symm.trans known.1⟩
  setFallback := by
    rintro offered state id target holds ⟨cleared, row, member, rfl⟩
    have assigned : (sink (some profiles)).setFallback state row.id target = _ :=
      setFallback_of_mem member target
    have written (other : Profile) :=
      @ProfileTable.mem_write state.table { row with udpFallback := some target } row other member
        rfl
    rw [assigned]
    refine ⟨rfl, ⟨fun _ => cleared, fun _ other inside => ?_, fun _ => ?_⟩, ?_⟩
    · rcases (written other).mp inside with here | ⟨old, _⟩
      · rw [here]
        exact holds.passwords cleared row member
      · exact holds.passwords cleared other old
    · have kept : ∀ other ∈ state.table.rows,
          (if other.id = row.id then { row with udpFallback := some target }
            else other).userOrder = other.userOrder := by
        intro other inside
        by_cases same : other.id = row.id
        · rw [if_pos same, state.table.eq_of_id_eq inside member same]
        · rw [if_neg same]
      rw [ProfileTable.write_rows, Rows.replace, List.pairwise_map]
      apply (holds.ordered cleared).imp_of_mem
      intro first second firstInside secondInside less
      rw [kept first firstInside, kept second secondInside]
      exact less
    · rintro id ⟨_, other, inside, same⟩
      refine ⟨cleared, ?_⟩
      by_cases here : other.id = row.id
      · exact ⟨_, (written _).mpr (Or.inl rfl), here.symm.trans same⟩
      · exact ⟨other, (written _).mpr (Or.inr ⟨inside, here⟩), same⟩

/-! ## Documents -/

def Imports (profile row : Profile) : Prop :=
  row = { profile with
    id := row.id, udpFallback := row.udpFallback, tx := row.tx, rx := row.rx,
    userOrder := row.userOrder }

def Resolved (rows : List Profile) (row : Profile) : Option Profile → Prop
  | none => row.udpFallback = none
  | some fallback =>
      ∃ target ∈ rows, row.udpFallback = some target.id ∧ fallback.fallbackMatches target = true

section

variable {listing : List Profile} {entries : List (FallbackKey × Profile)} {row : Profile}

theorem link_id : (link listing entries row).id = row.id := by
  rw [link]
  split <;> rfl

theorem fallbackMatches_link (fallback : Profile) :
    fallback.fallbackMatches (link listing entries row) = fallback.fallbackMatches row := by
  rw [link]
  split <;> rfl

theorem imports_link {profile : Profile} (stores : Stores profile row) :
    Imports profile (link listing entries row) := by
  rw [link]
  split
  · rw [stores]
    rfl
  · rw [stores]
    rfl

theorem Stores.fallbackMatches {profile : Profile} (stores : Stores profile row)
    (fallback : Profile) : fallback.fallbackMatches row = fallback.fallbackMatches profile := by
  rw [stores]
  rfl

end

structure Created (parser : JsonParser) (entries : List (FallbackKey × Profile))
    (state : ImportState) : Prop where
  distinct : (LinkedMap.keys entries).Nodup
  known : ∀ entry ∈ entries, ∃ row ∈ state.table.rows, entry.1 = .stored row.id
  drawn : ∀ entry ∈ entries, entry.2 ∈ parser.fallbackMap.map Prod.snd
  length : state.table.rows.length = parser.profiles.length
  each : ∀ (index : Nat) (profile row : Profile), parser.profiles[index]? = some profile →
    state.table.rows[index]? = some row → Stores profile row ∧
      LinkedMap.get (.stored row.id) entries = if profile ∈ parser.profiles.take index then none
        else LinkedMap.get (.parsed profile) parser.fallbackMap

section

variable {parser : JsonParser} {entries : List (FallbackKey × Profile)}
  (created : Created parser entries state)

include created

/-- Fallbacks that are among the profiles are found among the rows. -/
theorem Created.found
    (matched : ∀ fallback ∈ parser.fallbackMap.map Prod.snd, ∃ profile ∈ parser.profiles,
      fallback.fallbackMatches profile = true) :
    ∀ entry ∈ entries, ∃ target,
      state.table.rows.find? entry.2.fallbackMatches = some target := by
  intro entry member
  obtain ⟨profile, listed, same⟩ := matched _ (created.drawn entry member)
  obtain ⟨index, inside⟩ := List.mem_iff_getElem?.mp listed
  obtain ⟨row, here⟩ := Rows.exists_getElem? created.length inside
  apply Option.isSome_iff_exists.mp
  rw [List.find?_isSome]
  refine ⟨row, List.mem_of_getElem? here, ?_⟩
  rw [(created.each index profile row inside here).1.fallbackMatches, same]

/-- What linking makes of the row of a profile. -/
theorem Created.linked
    (found : ∀ entry ∈ entries, ∃ target,
      state.table.rows.find? entry.2.fallbackMatches = some target)
    {index : Nat} {profile row : Profile} (fresh : JsonParser.Fresh profile)
    (listed : parser.profiles[index]? = some profile)
    (inside : state.table.rows[index]? = some row) :
    Imports profile (link state.table.rows entries row) ∧
      Resolved (state.table.rows.map (link state.table.rows entries))
        (link state.table.rows entries row)
        (if profile ∈ parser.profiles.take index then none
          else LinkedMap.get (.parsed profile) parser.fallbackMap) := by
  obtain ⟨stores, entry⟩ := created.each index profile row listed inside
  refine ⟨imports_link stores, ?_⟩
  rw [← entry]
  cases described : LinkedMap.get (.stored row.id) entries with
  | none =>
      rw [Resolved, link, described]
      dsimp only
      rw [stores]
      exact fresh.2
  | some fallback =>
      obtain ⟨target, here⟩ := found _ (LinkedMap.mem_of_get described)
      refine ⟨link state.table.rows entries target,
        List.mem_map_of_mem (List.mem_of_find?_eq_some here), ?_, ?_⟩
      · rw [link_id, link, described]
        dsimp only at here ⊢
        rw [here]
        rfl
      · rw [fallbackMatches_link]
        exact List.find?_some here

end

theorem offered_start (table : ProfileTable) : Offered [] { table := table } where
  cleared := fun differs => absurd rfl differs
  passwords := Bool.noConfusion
  ordered := Bool.noConfusion

section

variable {runtime : Runtime} {feature : Option Profile} {json : Json} {parser : JsonParser}

theorem created_createAll (wellFormed : JsonParser.WellFormed parser)
    (nonempty : parser.profiles ≠ []) (distinct : (LinkedMap.keys parser.fallbackMap).Nodup)
    (table : ProfileTable) (profiles : List (String × Profile)) :
    Created parser
      (JsonParser.createAll (sink (some profiles)) parser.fallbackMap { table := table }
        parser.profiles).1
      (JsonParser.createAll (sink (some profiles)) parser.fallbackMap { table := table }
        parser.profiles).2 := by
  obtain ⟨_, ready⟩ := (keeps_offered profiles).createAll parser.profiles wellFormed.profiles
    (offered_start table) (wellFormed.ready _) (fun entry member => List.mem_map_of_mem member)
  obtain ⟨rows, whole, lengths, each⟩ := @createAll_rows profiles
    (clear { table := table }) rfl parser.fallbackMap parser.profiles
  rw [← createAll_uncleared rfl _ nonempty, clear_rows, List.nil_append] at whole
  have unused : ∀ id, table.sequence < id →
      LinkedMap.get (.stored id) parser.fallbackMap = none :=
    fun id _ => wellFormed.get_stored id
  constructor
  · exact JsonParser.nodup_createAll _ _ _ distinct
  · intro entry member
    obtain ⟨⟨_, ⟨_, impossible, _⟩ | ⟨id, same, _, row, inside, rfl⟩⟩, _⟩ := ready entry member
    · cases impossible
    · exact ⟨row, inside, same⟩
  · exact fun entry member => (ready entry member).2
  · rw [whole, lengths]
  · intro index profile row listed stored
    rw [whole] at stored
    obtain ⟨stores, numbered⟩ := each index profile row listed stored
    refine ⟨stores, ?_⟩
    rw [numbered]
    exact @JsonParser.Numbers.get_stored _ _ _ parser.fallbackMap { table := table }
      (numbers (some profiles)) parser.profiles unused index profile listed

/-- What a document with profiles leaves behind, where every fallback is one of them: its
profiles in their order, and of several equal ones only the first is linked. -/
theorem parseJson_rows (processed : JsonParser.process runtime feature {} json = .ok parser)
    (nonempty : parser.profiles ≠ []) (distinct : (LinkedMap.keys parser.fallbackMap).Nodup)
    (matched : ∀ fallback ∈ parser.fallbackMap.map Prod.snd, ∃ profile ∈ parser.profiles,
      fallback.fallbackMatches profile = true) (table : ProfileTable)
    (profiles : List (String × Profile)) :
    ∃ result : ImportState,
      JsonParser.parseJson (sink (some profiles)) runtime feature json { table := table } =
        (result, true) ∧ result.table.rows.length = parser.profiles.length ∧
      ∀ (index : Nat) (profile row : Profile), parser.profiles[index]? = some profile →
        result.table.rows[index]? = some row →
        Imports profile row ∧ Resolved result.table.rows row
          (if profile ∈ parser.profiles.take index then none
            else LinkedMap.get (.parsed profile) parser.fallbackMap) := by
  have wellFormed := JsonParser.wellFormed_document processed
  have created := created_createAll wellFormed nonempty distinct table profiles
  rw [JsonParser.parseJson, processed]
  dsimp only [JsonParser.finalize]
  generalize JsonParser.createAll (sink (some profiles)) parser.fallbackMap { table := table }
    parser.profiles = stored at created
  obtain ⟨entries, state⟩ := stored
  have found := created.found matched
  obtain ⟨done, linked⟩ := finalizeAll_rows (some profiles) state.table.rows created.distinct
    created.known found
  refine ⟨_, Prod.ext rfl done, (congrArg List.length linked).trans ?_, ?_⟩
  · rw [List.length_map, created.length]
  · intro index profile row listed inside
    change (JsonParser.finalizeAll (sink (some profiles)) state.table.rows state
      entries).1.table.rows[index]? = some row at inside
    rw [linked, List.getElem?_map] at inside
    obtain ⟨old, there, rfl⟩ := Option.map_eq_some_iff.mp inside
    have fresh := wellFormed.profiles profile (List.mem_of_getElem? listed)
    change Imports profile _ ∧ Resolved (JsonParser.finalizeAll (sink (some profiles))
      state.table.rows state entries).1.table.rows _ _
    rw [linked]
    exact created.linked found fresh listed there

end

end ImportState

end AlienConnection.Database
