import AlienConnection.Database.ProfileImport
import AlienConnection.Database.ProfileObjects

/-!
# Links to UDP fallbacks

The fallback of a profile is filed under the profile, and profiles are compared by their
columns. So of several profile objects with the same columns only the first is linked, and
to the fallback of the last.
-/

namespace AlienConnection.Database

open Library

/-- The columns by which a fallback is identified. -/
def Profile.serverKey (profile : Profile) : String × Int × String × String :=
  (profile.host, profile.remotePort, profile.password, profile.method)

/-- A create function, over the table and whatever else it works on. The profile that it
returns is the object it was given. -/
structure Creator (σ : Type) where
  create : σ → ProfileTable → Profile → Profile × σ × ProfileTable

namespace Creator

variable {σ : Type}

def sink (creator : Creator σ) : ProfileSink (σ × ProfileTable) where
  create := fun state profile =>
    ((creator.create state.1 state.2 profile).1.id, (creator.create state.1 state.2 profile).2)
  getAllProfiles := fun state => state.2.listAll
  setFallback := fun state id target =>
    let done := ImportState.setFallback { table := state.2 } id target
    ((state.1, done.1.table), done.2)

/-- The function adds the profile as a row of its own, under an id that no row has. -/
structure StoresFresh (creator : Creator σ) : Prop where
  columns : ∀ own table profile,
    ImportState.Stores profile (creator.create own table profile).1
  fresh : ∀ own table profile, ∀ row ∈ table.rows,
    row.id ≠ (creator.create own table profile).1.id
  rows : ∀ own table profile row, row ∈ (creator.create own table profile).2.2.rows ↔
    row ∈ table.rows ∨ row = (creator.create own table profile).1

def createProfile : Creator Unit where
  create := fun _ table profile =>
    let created := ProfileManager.createProfile table profile
    (created.1, (), created.2)

theorem storesFresh_createProfile : createProfile.StoresFresh where
  columns := fun _ _ _ => rfl
  fresh := by
    intro _ table profile row member
    have bound := table.bounded row member
    change row.id ≠ table.sequence + 1
    omega
  rows := by
    intro _ table profile row
    change row ∈ (ProfileManager.createProfile table profile).2.rows ↔ _
    rw [ProfileManager.createProfile_rows, List.mem_append, List.mem_singleton]
    rfl

end Creator

def LinkedTo (table : ProfileTable) (id : Int) (fallback : Profile) : Prop :=
  ∃ row ∈ table.rows, row.id = id ∧ ∃ target ∈ table.rows,
    row.udpFallback = some target.id ∧ target.serverKey = fallback.serverKey

/-- After `parseJson`, every stored profile that came from an object with a fallback is
linked to that fallback. -/
def Creator.Links {σ : Type} (creator : Creator σ) (runtime : Runtime)
    (feature : Option Profile) (json : Json) (own : σ) (table : ProfileTable) : Prop :=
  ∀ found, JsonParser.described runtime feature json = .ok found →
    let ids := JsonParser.answers creator.sink (own, table) (found.map Prod.fst)
    let done := JsonParser.parseJson creator.sink runtime feature json (own, table)
    ∀ (index : Nat) (profile fallback : Profile) (id : Int),
      found[index]? = some (profile, some fallback) → ids[index]? = some id →
        LinkedTo done.1.2 id fallback

/-- No object with a fallback comes after another one with the same columns. -/
def FirstOfEquals (runtime : Runtime) (feature : Option Profile) (json : Json) : Prop :=
  ∀ found, JsonParser.described runtime feature json = .ok found →
    ∀ (index : Nat) (profile fallback : Profile),
      found[index]? = some (profile, some fallback) →
        profile ∉ (found.take index).map Prod.fst

/-! ## Tables that grow -/

def ProfileTable.Extends (before after : ProfileTable) : Prop :=
  ∀ row ∈ before.rows, ∃ next ∈ after.rows, next = { row with udpFallback := next.udpFallback }

namespace ProfileTable

theorem extends_of_subset {before after : ProfileTable}
    (kept : ∀ row ∈ before.rows, row ∈ after.rows) : before.Extends after :=
  fun row member => ⟨row, kept row member, rfl⟩

theorem Extends.trans {first second third : ProfileTable} (before : first.Extends second)
    (after : second.Extends third) : first.Extends third := by
  intro row member
  obtain ⟨next, inside, same⟩ := before row member
  obtain ⟨last, there, equal⟩ := after next inside
  exact ⟨last, there, by rw [equal, same]⟩

theorem extends_write {table : ProfileTable} {row : Profile} (member : row ∈ table.rows)
    (udpFallback : Option Int) :
    table.Extends (table.write { row with udpFallback := udpFallback }) := by
  intro other inside
  by_cases same : other.id = row.id
  · cases table.eq_of_id_eq inside member same
    exact ⟨_, Rows.mem_replace_self member rfl, rfl⟩
  · exact ⟨other, Rows.mem_replace_of_ne inside same, rfl⟩

end ProfileTable

namespace Creator

variable {σ : Type} {creator : Creator σ}

theorem setFallback_of_mem {state : σ × ProfileTable} {row : Profile}
    (member : row ∈ state.2.rows) (target : Int) :
    creator.sink.setFallback state row.id target =
      ((state.1, state.2.write { row with udpFallback := some target }), true) := by
  have assigned : ImportState.setFallback { table := state.2 } row.id target = _ :=
    ImportState.setFallback_of_mem member target
  simp only [sink, assigned]

/-! ## Storing -/

theorem StoresFresh.kept (stores : creator.StoresFresh) {state : σ × ProfileTable}
    {row : Profile} (member : row ∈ state.2.rows) (profile : Profile) :
    row ∈ (creator.sink.create state profile).2.2.rows :=
  (stores.rows state.1 state.2 profile row).mpr (Or.inl member)

theorem StoresFresh.stored (stores : creator.StoresFresh) (state : σ × ProfileTable)
    (profile : Profile) :
    ∃ row ∈ (creator.sink.create state profile).2.2.rows,
      row.id = (creator.sink.create state profile).1 ∧ ImportState.Stores profile row :=
  ⟨_, (stores.rows state.1 state.2 profile _).mpr (Or.inr rfl), rfl,
    stores.columns state.1 state.2 profile⟩

/-- Every profile of a document gets a row, and no row is lost. -/
theorem StoresFresh.createAll (stores : creator.StoresFresh) (profiles : List Profile)
    (fallbackMap : List (FallbackKey × Profile)) (state : σ × ProfileTable) :
    let last := (JsonParser.createAll creator.sink fallbackMap state profiles).2
    (∀ row ∈ state.2.rows, row ∈ last.2.rows) ∧
      ∀ (index : Nat) (profile : Profile) (id : Int), profiles[index]? = some profile →
        (JsonParser.answers creator.sink state profiles)[index]? = some id →
          ∃ row ∈ last.2.rows, row.id = id ∧ ImportState.Stores profile row := by
  induction profiles generalizing fallbackMap state with
  | nil => exact ⟨fun _ member => member, fun _ _ _ none => nomatch none⟩
  | cons first rest ih =>
      rw [JsonParser.Numbers.createAll_cons]
      obtain ⟨kept, each⟩ := ih (JsonParser.Numbers.mapAfter creator.sink fallbackMap state first)
        (creator.sink.create state first).2
      refine ⟨fun row member => kept row (stores.kept member first), ?_⟩
      intro index profile id listed answered
      cases index with
      | zero =>
          cases listed
          cases answered
          obtain ⟨row, member, same, columns⟩ := stores.stored state first
          exact ⟨row, kept row member, same, columns⟩
      | succ index => exact each index profile id listed answered

/-- The ids of a document are new, and no two are equal. -/
theorem StoresFresh.answers (stores : creator.StoresFresh) (profiles : List Profile)
    (state : σ × ProfileTable) :
    (JsonParser.answers creator.sink state profiles).Nodup ∧
      ∀ id ∈ JsonParser.answers creator.sink state profiles, ∀ row ∈ state.2.rows,
        row.id ≠ id := by
  induction profiles generalizing state with
  | nil => exact ⟨List.nodup_nil, fun _ none => nomatch none⟩
  | cons first rest ih =>
      obtain ⟨distinct, unused⟩ := ih (creator.sink.create state first).2
      refine ⟨List.nodup_cons.mpr ⟨fun member => ?_, distinct⟩, ?_⟩
      · obtain ⟨row, inside, same, _⟩ := stores.stored state first
        exact unused _ member row inside same
      · intro id member row inside
        rcases List.mem_cons.mp member with here | later
        · rw [here]
          exact stores.fresh state.1 state.2 first row inside
        · exact unused id later row (stores.kept inside first)

def Known (state : σ × ProfileTable) (id : Int) : Prop := ∃ row ∈ state.2.rows, row.id = id

theorem StoresFresh.keeps (stores : creator.StoresFresh) :
    JsonParser.Keeps creator.sink (fun _ _ => True) Known where
  create := by
    intro _ state profile _ _
    obtain ⟨row, member, same, _⟩ := stores.stored state profile
    refine ⟨trivial, ⟨row, member, same⟩, ?_⟩
    rintro id ⟨other, inside, equal⟩
    exact ⟨other, stores.kept inside profile, equal⟩
  setFallback := by
    rintro _ state id target _ ⟨row, member, rfl⟩
    rw [setFallback_of_mem member]
    refine ⟨rfl, trivial, ?_⟩
    rintro id ⟨other, inside, equal⟩
    obtain ⟨next, there, same⟩ := ProfileTable.extends_write member (some target) other inside
    exact ⟨next, there, by rw [same]; exact equal⟩

/-- When the profiles of a document are stored, its fallbacks are filed under rows. -/
theorem StoresFresh.known (stores : creator.StoresFresh) {parser : JsonParser}
    (wellFormed : JsonParser.WellFormed parser) (state : σ × ProfileTable) :
    let created := JsonParser.createAll creator.sink parser.fallbackMap state parser.profiles
    ∀ entry ∈ created.1, ∃ row ∈ created.2.2.rows, entry.1 = .stored row.id := by
  obtain ⟨_, ready⟩ := @JsonParser.Keeps.createAll _ _ _ _ stores.keeps parser.profiles
    wellFormed.profiles [] state trivial _ (wellFormed.ready (Known state)) _
    (fun entry member => List.mem_map_of_mem member)
  intro created entry member
  obtain ⟨⟨_, ⟨_, impossible, _⟩ | ⟨id, same, row, inside, rfl⟩⟩, _⟩ := ready entry member
  · cases impossible
  · exact ⟨row, inside, same⟩

/-! ## Linking -/

/-- A fallback stands for a row with its server. -/
theorem StoresFresh.resolve (stores : creator.StoresFresh) {listing : List Profile}
    {state : σ × ProfileTable}
    (listed : ∀ row ∈ listing, ∃ now ∈ state.2.rows, now.id = row.id ∧
      now.serverKey = row.serverKey) (fallback : Profile) :
    let resolved := JsonParser.resolve creator.sink listing state fallback
    (∀ row ∈ state.2.rows, row ∈ resolved.2.2.rows) ∧
      ∃ target ∈ resolved.2.2.rows, target.id = resolved.1 ∧
        target.serverKey = fallback.serverKey := by
  unfold JsonParser.resolve
  split
  next row found =>
    obtain ⟨now, inside, same, server⟩ := listed row (List.mem_of_find?_eq_some found)
    refine ⟨fun _ member => member, now, inside, same, server.trans ?_⟩
    have matched := List.find?_some found
    rw [Profile.fallbackMatches, Bool.and_eq_true, decide_eq_true_eq] at matched
    obtain ⟨⟨host, port, password, method⟩, _⟩ := matched
    rw [Profile.serverKey, Profile.serverKey, host, port, password, method]
  next =>
    refine ⟨fun row member => stores.kept member fallback, ?_⟩
    obtain ⟨row, inside, same, columns⟩ := stores.stored state fallback
    exact ⟨row, inside, same, by rw [columns]; rfl⟩

theorem LinkedTo.extends {before after : ProfileTable} {id : Int} {fallback : Profile}
    (linked : LinkedTo before id fallback) (extended : before.Extends after)
    (same : ∀ row ∈ before.rows, row.id = id → row ∈ after.rows) : LinkedTo after id fallback := by
  obtain ⟨row, member, key, target, inside, pointer, server⟩ := linked
  obtain ⟨next, there, equal⟩ := extended target inside
  have kept : next.id = target.id ∧ next.serverKey = target.serverKey := by
    rw [equal]
    exact ⟨rfl, rfl⟩
  exact ⟨row, same row member key, key, next, there, by rw [pointer, kept.1], kept.2.trans server⟩

/-- The loop of `finalize` links the row of every entry, and changes no other row. -/
theorem StoresFresh.finalizeAll (stores : creator.StoresFresh) (listing : List Profile)
    {entries : List (FallbackKey × Profile)} {state : σ × ProfileTable}
    (distinct : (LinkedMap.keys entries).Nodup)
    (known : ∀ entry ∈ entries, ∃ row ∈ state.2.rows, entry.1 = .stored row.id)
    (listed : ∀ row ∈ listing, ∃ now ∈ state.2.rows, now.id = row.id ∧
      now.serverKey = row.serverKey) :
    let last := (JsonParser.finalizeAll creator.sink listing state entries).1
    state.2.Extends last.2 ∧
      (∀ row ∈ state.2.rows, .stored row.id ∉ LinkedMap.keys entries → row ∈ last.2.rows) ∧
      ∀ id fallback, (.stored id, fallback) ∈ entries → LinkedTo last.2 id fallback := by
  induction entries generalizing state with
  | nil =>
      exact ⟨ProfileTable.extends_of_subset fun _ member => member, fun _ member _ => member,
        fun _ _ none => nomatch none⟩
  | cons entry rest ih =>
      obtain ⟨key, fallback⟩ := entry
      obtain ⟨row, member, rfl⟩ := known _ List.mem_cons_self
      obtain ⟨absent, distinctRest⟩ := List.nodup_cons.mp distinct
      obtain ⟨kept, target, inside, pointed, server⟩ := stores.resolve listed fallback
      simp only [JsonParser.finalizeAll]
      generalize JsonParser.resolve creator.sink listing state fallback = resolved at *
      obtain ⟨pointer, next⟩ := resolved
      dsimp only at kept inside pointed ⊢
      rw [setFallback_of_mem (kept row member), if_pos rfl]
      have written := ProfileTable.extends_write (kept row member) (some pointer)
      have extended : state.2.Extends
          (next.2.write { row with udpFallback := some pointer }) :=
        (ProfileTable.extends_of_subset kept).trans written
      have others : ∀ other ∈ state.2.rows, other.id ≠ row.id →
          other ∈ (next.2.write { row with udpFallback := some pointer }).rows :=
        fun other old differs => Rows.mem_replace_of_ne (kept other old) differs
      have keys : ∀ old ∈ state.2.rows, ∃ now ∈
          (next.2.write { row with udpFallback := some pointer }).rows, now.id = old.id ∧
            now.serverKey = old.serverKey := by
        intro old there
        obtain ⟨now, found, equal⟩ := extended old there
        exact ⟨now, found, by rw [equal], by rw [equal]; rfl⟩
      obtain ⟨extendedRest, keptRest, linkedRest⟩ := @ih
        (next.1, next.2.write { row with udpFallback := some pointer }) distinctRest
        (by
          intro entry later
          obtain ⟨old, there, same⟩ := known entry (List.mem_cons_of_mem _ later)
          obtain ⟨now, found, equal, _⟩ := keys old there
          exact ⟨now, found, by rw [same, equal]⟩)
        (by
          intro old there
          obtain ⟨now, found, same, key⟩ := listed old there
          obtain ⟨later, foundLater, sameLater, keyLater⟩ := keys now found
          exact ⟨later, foundLater, sameLater.trans same, keyLater.trans key⟩)
      refine ⟨extended.trans extendedRest, ?_, ?_⟩
      · intro old there unkeyed
        obtain ⟨differs, later⟩ := not_or.mp (List.mem_cons.not.mp unkeyed)
        exact keptRest old (others old there (fun same => differs (by rw [same]))) later
      · intro id described entry
        rcases List.mem_cons.mp entry with here | later
        · cases here
          -- the row has just been linked, and its key does not occur again
          obtain ⟨nextTarget, there, equal⟩ := written target inside
          have here : { row with udpFallback := some pointer } ∈
              (next.2.write { row with udpFallback := some pointer }).rows :=
            Rows.mem_replace_self (kept row member) rfl
          refine LinkedTo.extends ⟨_, here, rfl, nextTarget, there, ?_, ?_⟩ extendedRest ?_
          · rw [equal]
            exact congrArg some pointed.symm
          · rw [equal]
            exact server
          · intro old there same
            refine keptRest old there ?_
            rw [same]
            exact absent
        · exact linkedRest id described later

/-! ## Documents -/

section

variable {runtime : Runtime} {feature : Option Profile} {json : Json}
  {found : List (Profile × Option Profile)}

/-- What a document leaves behind: the entry of an id decides about the link of its row. -/
theorem StoresFresh.parseJson (stores : creator.StoresFresh)
    (describes : JsonParser.described runtime feature json = .ok found) (own : σ)
    (table : ProfileTable) {index : Nat} {profile : Profile} {fallback : Option Profile} {id : Int}
    (listed : found[index]? = some (profile, fallback))
    (answered : (JsonParser.answers creator.sink (own, table) (found.map Prod.fst))[index]? =
      some id) :
    let last := (JsonParser.parseJson creator.sink runtime feature json (own, table)).1.2
    if profile ∈ (found.take index).map Prod.fst then
      ∃ row ∈ last.rows, row.id = id ∧ row.udpFallback = none
    else ∀ described, LinkedMap.get (.parsed profile) (JsonParser.collect found {}).fallbackMap =
      some described → LinkedTo last id described := by
  have wellFormed := JsonParser.wellFormed_of_described describes
  have profiles : (JsonParser.collect found {}).profiles = found.map Prod.fst :=
    JsonParser.profiles_collect
  have place : (found.map Prod.fst)[index]? = some profile := by
    rw [List.getElem?_map, listed]
    rfl
  obtain ⟨distinct, unused⟩ := stores.answers (found.map Prod.fst) (own, table)
  have keys := JsonParser.nodup_createAll creator.sink (found.map Prod.fst) (own, table)
    (@JsonParser.nodup_collect found {} List.nodup_nil)
  have entry := JsonParser.Numbers.get_answer distinct
    (fun id _ => wellFormed.get_stored id) place answered
  obtain ⟨kept, rows⟩ := stores.createAll (found.map Prod.fst)
    (JsonParser.collect found {}).fallbackMap (own, table)
  obtain ⟨row, member, same, columns⟩ := rows index profile id place answered
  have known := stores.known wellFormed (own, table)
  rw [profiles] at known
  simp only [JsonParser.parseJson_of_described describes]
  generalize JsonParser.createAll creator.sink (JsonParser.collect found {}).fallbackMap
    (own, table) (found.map Prod.fst) = created at *
  obtain ⟨_, others, linked⟩ := stores.finalizeAll created.2.2.listAll keys known
    (fun row inside => ⟨row, inside, rfl, rfl⟩)
  rw [List.map_take]
  split
  next seen =>
    rw [if_pos seen] at entry
    refine ⟨row, others row member ?_, same, ?_⟩
    · rw [same]
      exact LinkedMap.get_eq_none_iff.mp entry
    · have fresh := wellFormed.profiles profile (profiles ▸ List.mem_of_getElem? place)
      rw [columns]
      exact fresh.2
  next unseen =>
    rw [if_neg unseen] at entry
    intro described given
    exact linked id described (LinkedMap.mem_of_get (entry.trans given))

end

/-- The links of a document are right exactly if equal objects have their fallback in the
first of them. -/
theorem links_iff_firstOfEquals (stores : creator.StoresFresh) (runtime : Runtime)
    (feature : Option Profile) (json : Json) (own : σ) (table : ProfileTable) :
    creator.Links runtime feature json own table ↔ FirstOfEquals runtime feature json := by
  unfold Links FirstOfEquals
  refine forall₂_congr fun found describes => ⟨?_, ?_⟩
  · intro links index profile fallback listed seen
    have place : index < (JsonParser.answers creator.sink (own, table)
        (found.map Prod.fst)).length := by
      rw [JsonParser.length_answers, List.length_map]
      exact (List.getElem?_eq_some_iff.mp listed).1
    have answered := List.getElem?_eq_getElem place
    have unlinked := stores.parseJson describes own table listed answered
    rw [if_pos seen] at unlinked
    obtain ⟨row, member, same, none⟩ := unlinked
    obtain ⟨other, inside, equal, _, _, pointer, _⟩ :=
      links index profile fallback _ listed answered
    rw [ProfileTable.eq_of_id_eq _ inside member (equal.trans same.symm), none] at pointer
    cases pointer
  · intro first ids done index profile fallback id listed answered
    have linked := stores.parseJson describes own table listed answered
    rw [if_neg (first index profile fallback listed)] at linked
    apply linked
    -- an equal object that comes later has no fallback of its own
    obtain ⟨bound, here⟩ := List.getElem?_eq_some_iff.mp listed
    have split : found =
        found.take index ++ (profile, some fallback) :: found.drop (index + 1) := by
      rw [← here, List.getElem_cons_drop, List.take_append_drop]
    conv => enter [1, 2, 1]; rw [split]
    refine JsonParser.get_collect ?_
    rintro ⟨other, given⟩ later rfl
    cases given with
    | none => rfl
    | some given =>
        obtain ⟨place, there⟩ := List.mem_iff_getElem?.mp later
        rw [List.getElem?_drop] at there
        refine absurd ?_ (first _ _ _ there)
        refine List.mem_map.mpr ⟨(other, some fallback), ?_, rfl⟩
        refine List.mem_iff_getElem?.mpr ⟨index, ?_⟩
        rw [List.getElem?_take_of_lt (by omega), listed]

def serverMembers (host : String) : List (String × Json) :=
  [("server", .string host), ("server_port", .number "8388" (some 8388)),
    ("password", .string "secret"), ("method", .string "aes-256-gcm")]

def twin : Json :=
  .object (serverMembers "192.0.2.1" ++ [("udp_fallback", .object (serverMembers "192.0.2.2"))])

theorem links_single : createProfile.Links asciiRuntime none twin () ProfileTable.empty := by
  apply (links_iff_firstOfEquals storesFresh_createProfile asciiRuntime none twin ()
    ProfileTable.empty).mpr
  intro found describes index profile fallback listed seen
  cases describes
  cases index with
  | zero => cases seen
  | succ index => cases listed

/-- Two equal objects: the row of the second one stays without its fallback. -/
theorem not_links_twins :
    ¬ createProfile.Links asciiRuntime none (.array [twin, twin]) () ProfileTable.empty := by
  intro links
  obtain ⟨row, member, same, target, _, pointer, _⟩ := links _ rfl 1 _ _ 2 rfl rfl
  have columns : (JsonParser.parseJson createProfile.sink asciiRuntime none (.array [twin, twin])
      ((), ProfileTable.empty)).1.2.rows.map (fun row => (row.id, row.udpFallback)) =
      [(1, some 3), (2, none), (3, none)] := rfl
  have here : (row.id, row.udpFallback) ∈ [((1 : Int), some (3 : Int)), (2, none), (3, none)] :=
    columns ▸ List.mem_map_of_mem member
  rw [same, pointer] at here
  simp at here

end Creator

end AlienConnection.Database
