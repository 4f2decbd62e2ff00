import AlienConnection.Subscription.Marking

/-!
# The service refines the ledger

The objects in memory are the rows of the ledger's first table, the map of
subscriptions files its managed rows, and a row whose object has changed waits in
`toUpdate`. Writing back turns the stored table into the first one.
-/

namespace AlienConnection.Subscription

open Database Library

/-- Overwriting a row by one with its place keeps all places. -/
theorem map_place_write (table : ProfileTable) {old version : Profile}
    (member : old ∈ table.rows) (same : place old = place version) :
    (table.write version).rows.map place = table.rows.map place := by
  rw [ProfileTable.write_rows, Rows.replace, List.map_map]
  refine List.map_congr_left ?_
  intro row rowMember
  by_cases sameId : row.id = version.id
  · have oldId : old.id = version.id := congrArg Prod.fst same
    have equal := table.eq_of_id_eq rowMember member (sameId.trans oldId.symm)
    rw [Function.comp_apply, if_pos sameId, equal, same]
  · rw [Function.comp_apply, if_neg sameId]

/-- The state of the service and the ledger it stands for. `loaded` are the ids
that were read at the start and are visited by the write-back. -/
structure Mirrors (loaded : List Int) (state : SyncState) (ledger : Ledger) : Prop where
  stored : state.table = ledger.stored
  places : ledger.memory.rows.map place = ledger.stored.rows.map place
  sequence : ledger.memory.sequence = ledger.stored.sequence
  objects : ∀ row ∈ ledger.memory.rows, state.object row.id = some row
  heap : ∀ object ∈ state.objects, object.id ≤ ledger.memory.sequence
  filed : ∀ key id, LinkedMap.get key state.subscriptions = some id ↔
    ∃ row ∈ ledger.memory.rows, managed row = true ∧ row.subscriptionKey = key ∧ row.id = id
  clean : ∀ row ∈ ledger.memory.rows, row.id ∉ state.toUpdate → row ∈ ledger.stored.rows
  pending : ∀ id ∈ state.toUpdate, id ∈ loaded ∧ ∃ row ∈ ledger.memory.rows, row.id = id
  retired : ∀ row ∈ ledger.memory.rows, row.subscription = .obsolete → row.id ∈ loaded

namespace Mirrors

variable {loaded : List Int} {state : SyncState} {ledger : Ledger}

theorem ids (mirrors : Mirrors loaded state ledger) :
    ledger.memory.rows.map Profile.id = ledger.stored.rows.map Profile.id := by
  have firsts := congrArg (List.map Prod.fst) mirrors.places
  rw [List.map_map, List.map_map] at firsts
  exact firsts

theorem orders (mirrors : Mirrors loaded state ledger) :
    ledger.memory.rows.map Profile.userOrder = ledger.stored.rows.map Profile.userOrder := by
  have seconds := congrArg (List.map Prod.snd) mirrors.places
  rw [List.map_map, List.map_map] at seconds
  exact seconds

/-- Every row of the first table has a stored row in its place. -/
theorem exists_stored (mirrors : Mirrors loaded state ledger) {row : Profile}
    (member : row ∈ ledger.memory.rows) :
    ∃ old ∈ ledger.stored.rows, place old = place row := by
  have inside := List.mem_map_of_mem (f := place) member
  rw [mirrors.places] at inside
  exact List.mem_map.mp inside

/-- The map of subscriptions finds the object of the holder of a key. -/
theorem lookup_key (mirrors : Mirrors loaded state ledger) (key : Option String × String) :
    (LinkedMap.get key state.subscriptions).bind state.object = holder ledger.memory key := by
  cases found : holder ledger.memory key with
  | some row =>
      obtain ⟨member, isManaged, sameKey⟩ := holder_mem found
      rw [(mirrors.filed key row.id).mpr ⟨row, member, isManaged, sameKey, rfl⟩]
      exact mirrors.objects row member
  | none =>
      cases filed : LinkedMap.get key state.subscriptions with
      | none => rfl
      | some id =>
          obtain ⟨row, member, isManaged, sameKey, _⟩ := (mirrors.filed key id).mp filed
          exact absurd sameKey (holder_eq_none found member isManaged)

/-- One object changes, and its row in the first table with it. The stored row may
follow at once or wait. -/
theorem rewrite (mirrors : Mirrors loaded state ledger) {row version : Profile}
    (member : row ∈ ledger.memory.rows) (same : SameRow row version)
    {stored : ProfileTable} {toUpdate : List Int}
    (places : stored.rows.map place = ledger.stored.rows.map place)
    (sequence : stored.sequence = ledger.stored.sequence)
    (clean : ∀ other ∈ (ledger.memory.write version).rows, other.id ∉ toUpdate →
      other ∈ stored.rows)
    (pending : ∀ id ∈ toUpdate, id ∈ state.toUpdate ∨ (id = row.id ∧ id ∈ loaded))
    (retired : version.subscription = .obsolete → row.subscription = .obsolete) :
    Mirrors loaded
      { state with
        table := stored
        toUpdate := toUpdate
        objects := Rows.replace Profile.id version state.objects }
      { memory := ledger.memory.write version, stored := stored } := by
  have rows : ∀ {other}, other ∈ (ledger.memory.write version).rows ↔
      other = version ∨ (other ∈ ledger.memory.rows ∧ other.id ≠ version.id) := by
    intro other
    exact ledger.memory.mem_write member same.id.symm
  have present : version.id ∈ state.objects.map Profile.id := by
    have found := mirrors.objects row member
    obtain ⟨inside, sameId⟩ := Rows.lookup_mem found
    rw [same.id]
    exact List.mem_map_of_mem inside
  constructor
  case stored => rfl
  case places => rw [map_place_write ledger.memory member same.place, places, mirrors.places]
  case sequence => exact mirrors.sequence.trans sequence.symm
  case objects =>
    intro other otherMember
    rcases rows.mp otherMember with here | ⟨before, differs⟩
    · rw [here]
      exact Rows.lookup_replace_self present
    · exact (Rows.lookup_replace_other differs).trans (mirrors.objects other before)
  case heap =>
    intro object objectMember
    rcases Rows.mem_replace objectMember with here | ⟨before, _⟩
    · rw [here, same.id]
      exact ledger.memory.bounded row member
    · exact mirrors.heap object before
  case filed =>
    intro key id
    refine (mirrors.filed key id).trans ?_
    constructor
    · rintro ⟨other, otherMember, isManaged, sameKey, sameId⟩
      by_cases replaced : other.id = version.id
      · have equal := ledger.memory.eq_of_id_eq otherMember member (replaced.trans same.id)
        rw [equal] at isManaged sameKey sameId
        exact ⟨version, rows.mpr (Or.inl rfl), same.managed.trans isManaged,
          same.subscriptionKey.trans sameKey, same.id.trans sameId⟩
      · exact ⟨other, rows.mpr (Or.inr ⟨otherMember, replaced⟩), isManaged, sameKey, sameId⟩
    · rintro ⟨other, otherMember, isManaged, sameKey, sameId⟩
      rcases rows.mp otherMember with here | ⟨before, _⟩
      · rw [here] at isManaged sameKey sameId
        exact ⟨row, member, same.managed.symm.trans isManaged,
          same.subscriptionKey.symm.trans sameKey, same.id.symm.trans sameId⟩
      · exact ⟨other, before, isManaged, sameKey, sameId⟩
  case clean => exact clean
  case pending =>
    intro id waiting
    rcases pending id waiting with before | ⟨sameId, inside⟩
    · obtain ⟨inside, other, otherMember, otherId⟩ := mirrors.pending id before
      refine ⟨inside, ?_⟩
      rw [← List.mem_map]
      rw [show (ledger.memory.write version).rows.map Profile.id = _ from
        Rows.map_key_replace version ledger.memory.rows]
      exact List.mem_map.mpr ⟨other, otherMember, otherId⟩
    · exact ⟨inside, version, rows.mpr (Or.inl rfl), same.id.trans sameId.symm⟩
  case retired =>
    intro other otherMember obsolete
    rcases rows.mp otherMember with here | ⟨before, _⟩
    · rw [here] at obsolete ⊢
      rw [same.id]
      exact mirrors.retired row member (retired obsolete)
    · exact mirrors.retired other before obsolete

/-- A new profile joins both tables and is filed. -/
theorem grow (mirrors : Mirrors loaded state ledger) {key : Option String × String}
    {created : Profile} {memory stored : ProfileTable}
    (vacant : holder ledger.memory key = none)
    (memoryRows : memory.rows = ledger.memory.rows ++ [created])
    (storedRows : stored.rows = ledger.stored.rows ++ [created])
    (memorySequence : memory.sequence = ledger.memory.sequence + 1)
    (storedSequence : stored.sequence = ledger.stored.sequence + 1)
    (id : created.id = ledger.memory.sequence + 1) (active : created.subscription = .active)
    (createdKey : created.subscriptionKey = key) :
    Mirrors loaded
      { state with
        table := stored
        objects := state.objects ++ [created]
        subscriptions := LinkedMap.put key created.id state.subscriptions }
      { memory := memory, stored := stored } := by
  have mem : ∀ {row}, row ∈ memory.rows ↔ row ∈ ledger.memory.rows ∨ row = created := by
    intro row
    rw [memoryRows, List.mem_append, List.mem_singleton]
  have createdManaged : managed created = true := by simp [managed, active]
  constructor
  case stored => rfl
  case places => simp only [memoryRows, storedRows, List.map_append, mirrors.places]
  case sequence =>
    rw [memorySequence, storedSequence, mirrors.sequence]
  case objects =>
    intro row member
    rw [SyncState.object, Rows.lookup, List.find?_append]
    rcases mem.mp member with before | here
    · have found := mirrors.objects row before
      rw [SyncState.object, Rows.lookup] at found
      rw [found]
      rfl
    · have missing : state.objects.find? (fun object => decide (object.id = row.id)) = none := by
        rw [List.find?_eq_none]
        intro object objectMember
        have bound := mirrors.heap object objectMember
        rw [here, id, decide_eq_true_iff]
        omega
      rw [missing, here]
      simp
  case heap =>
    intro object member
    rw [memorySequence]
    rcases List.mem_append.mp member with before | here
    · have bound := mirrors.heap object before
      omega
    · cases List.mem_singleton.mp here
      exact Int.le_of_eq id
  case filed =>
    intro wanted wantedId
    by_cases sameKey : wanted = key
    · rw [sameKey, LinkedMap.get_put_self, Option.some_inj]
      constructor
      · intro newId
        exact ⟨created, mem.mpr (Or.inr rfl), createdManaged, createdKey, newId⟩
      · rintro ⟨row, member, isManaged, rowKey, rowId⟩
        rcases mem.mp member with before | here
        · exact absurd rowKey (holder_eq_none vacant before isManaged)
        · rw [← here]
          exact rowId
    · rw [LinkedMap.get_put_other sameKey, mirrors.filed]
      constructor
      · rintro ⟨row, member, rest⟩
        exact ⟨row, mem.mpr (Or.inl member), rest⟩
      · rintro ⟨row, member, isManaged, rowKey, rowId⟩
        rcases mem.mp member with before | here
        · exact ⟨row, before, isManaged, rowKey, rowId⟩
        · rw [here, createdKey] at rowKey
          exact absurd rowKey.symm sameKey
  case clean =>
    intro row member unchanged
    rw [storedRows, List.mem_append, List.mem_singleton]
    rcases mem.mp member with before | here
    · exact Or.inl (mirrors.clean row before unchanged)
    · exact Or.inr here
  case pending =>
    intro waitingId waiting
    obtain ⟨inside, row, member, sameId⟩ := mirrors.pending waitingId waiting
    exact ⟨inside, row, mem.mpr (Or.inl member), sameId⟩
  case retired =>
    intro row member obsolete
    rcases mem.mp member with before | here
    · exact mirrors.retired row before obsolete
    · rw [here, active] at obsolete
      cases obsolete

/-- A profile is created in both tables and filed. -/
theorem insert (mirrors : Mirrors loaded state ledger) {it : Profile}
    (vacant : holder ledger.memory it.subscriptionKey = none) :
    (state.insert it).1 = (ledger.offer it).1 ∧
      Mirrors loaded (state.insert it).2 (ledger.offer it).2 := by
  have same : (ProfileManager.createProfile ledger.memory
        { it with subscription := .active }).1 =
      (ProfileManager.createProfile ledger.stored { it with subscription := .active }).1 :=
    ProfileManager.createProfile_congr mirrors.orders mirrors.sequence _
  rw [SyncState.insert, Ledger.offer, vacant, mirrors.stored]
  dsimp only
  rw [← same]
  refine ⟨rfl, mirrors.grow vacant rfl ?_ rfl rfl rfl rfl rfl⟩
  rw [same]
  rfl

/-- The callback answers as an offer does. -/
theorem create (mirrors : Mirrors loaded state ledger) (it : Profile) :
    (state.create it).1 = (ledger.offer it).1 ∧
      Mirrors loaded (state.create it).2 (ledger.offer it).2 := by
  rw [SyncState.create, mirrors.lookup_key]
  cases found : holder ledger.memory it.subscriptionKey with
  | none => exact mirrors.insert found
  | some oldProfile =>
      obtain ⟨member, isManaged, sameKey⟩ := holder_mem found
      rw [Ledger.offer, found]
      dsimp only
      cases status : oldProfile.subscription with
      | userConfigured => simp [managed, status] at isManaged
      | active =>
          rw [if_pos rfl]
          exact ⟨rfl, mirrors⟩
      | obsolete =>
          rw [if_neg SubscriptionStatus.noConfusion]
          refine ⟨rfl, ?_⟩
          have inside := mirrors.retired oldProfile member status
          have same : SameRow oldProfile (takeOver oldProfile it) := SameRow.takeOver isManaged
          rw [mirrors.stored]
          refine mirrors.rewrite member same rfl rfl ?_ ?_ (fun active => by cases active)
          · intro other otherMember untouched
            rcases (ledger.memory.mem_write member same.id.symm).mp otherMember with
              here | ⟨before, _⟩
            · rw [here] at untouched
              exact absurd List.mem_cons_self untouched
            · exact mirrors.clean other before (fun waiting =>
                untouched (List.mem_cons_of_mem _ waiting))
          · intro id waiting
            rcases List.mem_cons.mp waiting with here | before
            · exact Or.inr ⟨here, by rw [here]; exact inside⟩
            · exact Or.inl before

/-- The link of a profile is set in its object and in its row. Of a profile without
a row only a stray object may change, and the update is refused. -/
theorem setFallback (mirrors : Mirrors loaded state ledger) (id target : Int) :
    (state.setFallback id target).2 = (ledger.link id target).2 ∧
      Mirrors loaded (state.setFallback id target).1 (ledger.link id target).1 := by
  rw [SyncState.setFallback, Ledger.link]
  cases present : ledger.memory.get id with
  | some row =>
      obtain ⟨member, sameId⟩ := ledger.memory.get_eq_some_iff.mp present
      have same := SameRow.link row (some target)
      obtain ⟨old, oldMember, oldPlace⟩ := mirrors.exists_stored member
      have oldId : old.id = row.id := congrArg Prod.fst oldPlace
      have updated : ProfileManager.updateProfile ledger.stored
          { row with udpFallback := some target } =
            some (ledger.stored.write { row with udpFallback := some target }) :=
        ProfileManager.updateProfile_of_mem oldMember oldId
      rw [← sameId, mirrors.objects row member]
      dsimp only
      rw [mirrors.stored, updated]
      refine ⟨rfl, mirrors.rewrite member same
        (map_place_write ledger.stored oldMember (oldPlace.trans same.place)) rfl ?_
        (fun _ before => Or.inl before) (fun obsolete => obsolete)⟩
      intro other otherMember untouched
      rw [ledger.stored.mem_write oldMember (oldId.trans same.id.symm)]
      rcases (ledger.memory.mem_write member same.id.symm).mp otherMember with
        here | ⟨before, differs⟩
      · exact Or.inl here
      · exact Or.inr ⟨mirrors.clean other before untouched, differs⟩
  | none =>
      have absent : ∀ row ∈ ledger.memory.rows, row.id ≠ id := by
        intro row member sameId
        rw [ledger.memory.get_eq_some_iff.mpr ⟨member, sameId⟩] at present
        cases present
      cases found : state.object id with
      | none => exact ⟨rfl, mirrors⟩
      | some stray =>
          obtain ⟨strayMember, strayId⟩ := Rows.lookup_mem found
          have refused : ProfileManager.updateProfile state.table
              { stray with udpFallback := some target } = none := by
            refine ProfileManager.updateProfile_of_not_mem ?_
            intro row member sameId
            have inside : row.id ∈ ledger.stored.rows.map Profile.id := by
              rw [← mirrors.stored]
              exact List.mem_map_of_mem member
            rw [← mirrors.ids] at inside
            obtain ⟨other, otherMember, otherId⟩ := List.mem_map.mp inside
            exact absent other otherMember (otherId.trans (sameId.trans strayId))
          dsimp only
          rw [refused]
          refine ⟨rfl, { mirrors with objects := ?_, heap := ?_ }⟩
          · intro row member
            refine Eq.trans (Rows.lookup_replace_other ?_) (mirrors.objects row member)
            exact fun sameId => absent row member (sameId.trans strayId)
          · intro object member
            rcases Rows.mem_replace member with here | ⟨before, _⟩
            · rw [here]
              exact mirrors.heap stray strayMember
            · exact mirrors.heap object before

/-- The service and the ledger answer alike. -/
theorem simulates (loaded : List Int) :
    JsonParser.Simulates SyncState.sink Ledger.sink (Mirrors loaded) (fun _ _ => True) where
  create := by
    intro state ledger profile _ mirrors
    obtain ⟨answer, next⟩ := mirrors.create profile
    exact ⟨answer, next, trivial, fun _ _ => trivial⟩
  getAllProfiles := by
    intro state ledger mirrors
    simp only [SyncState.sink, Ledger.sink, ProfileTable.listAll, mirrors.stored]
  setFallback := by
    intro state ledger id target mirrors _
    obtain ⟨flag, next⟩ := mirrors.setFallback id target
    exact ⟨flag, next, fun _ _ => trivial⟩

theorem absorb (mirrors : Mirrors loaded state ledger) (runtime : Runtime)
    (feature : Option Profile) (json : Option Json) :
    Mirrors loaded (state.absorb runtime feature json) (ledger.absorb runtime feature json) := by
  cases json with
  | none => exact mirrors
  | some json => exact ((simulates loaded).parseJson runtime feature json mirrors).2

theorem foldl_absorb (mirrors : Mirrors loaded state ledger) (runtime : Runtime)
    (feature : Option Profile) (jsons : List (Option Json)) :
    Mirrors loaded (jsons.foldl (SyncState.absorb runtime feature) state)
      (jsons.foldl (Ledger.absorb runtime feature) ledger) := by
  induction jsons generalizing state ledger with
  | nil => exact mirrors
  | cons json rest ih => exact ih (mirrors.absorb runtime feature json)

end Mirrors

/-! ## Writing back -/

/-- The last loop writes every waiting row, and no check fails. -/
theorem writeBack_eq (memory : ProfileTable) (ids : List Int) {state : SyncState}
    (places : memory.rows.map place = state.table.rows.map place)
    (sequence : memory.sequence = state.table.sequence)
    (objects : ∀ row ∈ memory.rows, state.object row.id = some row)
    (pending : ∀ id ∈ state.toUpdate, ∃ row ∈ memory.rows, row.id = id)
    (written : ∀ row ∈ memory.rows, row.id ∉ ids ∨ row.id ∉ state.toUpdate →
      row ∈ state.table.rows) :
    state.writeBack ids = some { state with table := memory } := by
  induction ids generalizing state with
  | nil =>
      have keys : memory.rows.map Profile.id = state.table.rows.map Profile.id := by
        have firsts := congrArg (List.map Prod.fst) places
        rw [List.map_map, List.map_map] at firsts
        exact firsts
      have rows := Rows.eq_of_map_key_eq keys state.table.ids_nodup
        (fun row member => written row member (Or.inl List.not_mem_nil))
      rw [SyncState.writeBack, ProfileTable.ext_rows rows sequence]
  | cons id rest ih =>
      by_cases waiting : id ∈ state.toUpdate
      · obtain ⟨row, member, sameId⟩ := pending id waiting
        have inside := List.mem_map_of_mem (f := place) member
        rw [places] at inside
        obtain ⟨old, oldMember, oldPlace⟩ := List.mem_map.mp inside
        have oldId : old.id = row.id := congrArg Prod.fst oldPlace
        rw [SyncState.writeBack, if_pos waiting, ← sameId, objects row member]
        dsimp only
        rw [ProfileManager.updateProfile_of_mem oldMember oldId]
        refine ih ?_ sequence objects pending ?_
        · rw [places, map_place_write state.table oldMember oldPlace]
        · intro other otherMember unwritten
          rw [state.table.mem_write oldMember oldId]
          by_cases here : other.id = row.id
          · exact Or.inl (memory.eq_of_id_eq otherMember member here)
          · refine Or.inr ⟨written other otherMember (unwritten.imp_left ?_), here⟩
            intro missing listed
            rcases List.mem_cons.mp listed with first | later
            · exact here (first.trans sameId.symm)
            · exact missing later
      · rw [SyncState.writeBack, if_neg waiting]
        refine ih places sequence objects pending ?_
        intro other otherMember unwritten
        refine written other otherMember ?_
        by_cases here : other.id = id
        · rw [here]
          exact Or.inr waiting
        · refine unwritten.imp_left ?_
          intro missing listed
          rcases List.mem_cons.mp listed with first | later
          · exact here first
          · exact missing later

/-! ## The whole synchronisation -/

/-- After the preprocessing phase the service is where the ledger starts. -/
theorem Marked.mirrors {table : ProfileTable} {currentId : Int} {state : SyncState}
    (marked : Marked table currentId table.rows state) :
    Mirrors (table.rows.map Profile.id) state (Ledger.start table) := by
  have memory : ∀ {row}, row ∈ (Ledger.start table).memory.rows ↔
      ∃ old ∈ table.rows, kept table old = true ∧ retire old = row := by
    intro row
    simp [Ledger.start, ProfileTable.mapRows, ProfileTable.restrict, and_assoc]
  have loaded : ∀ row ∈ (Ledger.start table).memory.rows, row.id ∈ table.rows.map Profile.id := by
    intro row member
    obtain ⟨old, oldMember, _, same⟩ := memory.mp member
    rw [← same, retire_id]
    exact List.mem_map_of_mem oldMember
  constructor
  case stored =>
    refine ProfileTable.ext_rows ?_ marked.sequence
    rw [marked.rows]
    refine List.filter_congr ?_
    intro row member
    simp [member]
  case places =>
    simp only [Ledger.start, ProfileTable.mapRows, List.map_map]
    refine List.map_congr_left ?_
    intro row _
    exact (SameRow.retire row).place.symm
  case sequence => rfl
  case objects =>
    intro row member
    obtain ⟨old, oldMember, isKept, same⟩ := memory.mp member
    have distinct : (state.objects.map Profile.id).Nodup := by
      rw [marked.objects_ids]
      exact table.ids_nodup
    refine (Rows.lookup_eq_some_iff distinct).mpr ⟨?_, rfl⟩
    rw [marked.objects]
    exact List.mem_map.mpr ⟨old, oldMember, by rw [if_pos ⟨oldMember, isKept⟩, same]⟩
  case heap =>
    intro object member
    have inside := List.mem_map_of_mem (f := Profile.id) member
    rw [marked.objects_ids] at inside
    obtain ⟨row, rowMember, sameId⟩ := List.mem_map.mp inside
    rw [← sameId]
    exact table.bounded row rowMember
  case filed =>
    intro key id
    rw [marked.filed]
    constructor
    · rintro ⟨old, oldMember, isKept, isManaged, sameKey, sameId⟩
      have same := SameRow.retire old
      exact ⟨retire old, memory.mpr ⟨old, oldMember, isKept, rfl⟩, same.managed.trans isManaged,
        same.subscriptionKey.trans sameKey, same.id.trans sameId⟩
    · rintro ⟨row, member, isManaged, sameKey, sameId⟩
      obtain ⟨old, oldMember, isKept, result⟩ := memory.mp member
      have same := SameRow.retire old
      rw [result] at same
      exact ⟨old, oldMember, isKept, same.managed.symm.trans isManaged,
        same.subscriptionKey.symm.trans sameKey, same.id.symm.trans sameId⟩
  case clean =>
    intro row member untouched
    obtain ⟨old, oldMember, isKept, same⟩ := memory.mp member
    have other : old.subscription ≠ .active := by
      intro active
      refine untouched ((marked.pending row.id).mpr ⟨old, oldMember, isKept, active, ?_⟩)
      rw [← same, retire_id]
    rw [← same, retire, if_neg other]
    exact List.mem_filter.mpr ⟨oldMember, isKept⟩
  case pending =>
    intro id waiting
    obtain ⟨old, oldMember, isKept, _, sameId⟩ := (marked.pending id).mp waiting
    rw [← sameId]
    exact ⟨List.mem_map_of_mem oldMember, retire old, memory.mpr ⟨old, oldMember, isKept, rfl⟩,
      retire_id old⟩
  case retired => exact fun row member _ => loaded row member

/-- The documents do not touch the current profile. -/
theorem preserves_profileId (current : Int) :
    JsonParser.Preserves SyncState.sink (fun state => state.profileId = current) where
  create := by
    intro state it same
    simp only [SyncState.sink, SyncState.create]
    split
    · exact same
    · split <;> exact same
  setFallback := by
    intro state id target same
    simp only [SyncState.sink, SyncState.setFallback]
    split
    · exact same
    · split <;> exact same

theorem profileId_foldl_absorb (runtime : Runtime) (feature : Option Profile)
    (jsons : List (Option Json)) (state : SyncState) :
    (jsons.foldl (SyncState.absorb runtime feature) state).profileId = state.profileId := by
  induction jsons generalizing state with
  | nil => rfl
  | cons json rest ih =>
      rw [List.foldl_cons, ih]
      cases json with
      | none => rfl
      | some json => exact (preserves_profileId state.profileId).parseJson runtime feature json rfl

/-- **Refinement.** A synchronisation succeeds and leaves the first table of the
ledger. -/
theorem sync_eq (runtime : Runtime) (table : ProfileTable) (currentId : Int)
    (jsons : List (Option Json)) :
    createProfilesFromSubscription runtime table currentId jsons =
      some ((Ledger.run runtime (featureOf table currentId) table jsons).memory,
        remainingId table currentId) := by
  obtain ⟨state, visited, marked⟩ :=
    (Marked.start table currentId).preprocessAll (List.nil_append table.rows).symm
  have mirrors := marked.mirrors.foldl_absorb runtime (featureOf table currentId) jsons
  have written := writeBack_eq _ (table.rows.map Profile.id)
    (by rw [mirrors.stored]; exact mirrors.places) (by rw [mirrors.stored]; exact mirrors.sequence)
    mirrors.objects (fun id waiting => (mirrors.pending id waiting).2) (by
      intro row member unwritten
      rw [mirrors.stored]
      refine mirrors.clean row member ?_
      intro waiting
      rcases unwritten with missing | untouched
      · exact missing (mirrors.pending row.id waiting).1
      · exact untouched waiting)
  have current : state.profileId = remainingId table currentId := marked.current
  rw [ProfileTable.listAll] at visited
  simp only [createProfilesFromSubscription, ProfileTable.listAll, visited, written,
    Option.bind_eq_bind, Option.bind_some, profileId_foldl_absorb, current]
  rfl

end AlienConnection.Subscription
