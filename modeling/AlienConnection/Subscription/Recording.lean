import AlienConnection.Subscription.Log
import Mathlib.Data.List.Find

/-!
# The ledger follows the log

Both tables of the ledger are read off the log after every offer and every link.
-/

namespace AlienConnection.Subscription

open Database Library

def DistinctKeys (table : ProfileTable) : Prop :=
  ∀ row ∈ table.rows, ∀ other ∈ table.rows, managed row = true → managed other = true →
    row.subscriptionKey = other.subscriptionKey → row = other

/-- Without its later duplicates a table has distinct keys. -/
theorem distinctKeys_kept (table : ProfileTable) :
    DistinctKeys (table.restrict (kept table)) := by
  intro row rowMember other otherMember rowManaged otherManaged sameKey
  obtain ⟨rowMember, rowKept⟩ := List.mem_filter.mp rowMember
  obtain ⟨otherMember, otherKept⟩ := List.mem_filter.mp otherMember
  have le := kept_le rowKept rowManaged otherMember otherManaged sameKey.symm
  have ge := kept_le otherKept otherManaged rowMember rowManaged sameKey
  exact table.eq_of_id_eq rowMember otherMember (Int.le_antisymm le ge)

structure Records (base : ProfileTable) (ledger : Ledger) (log : Log) : Prop where
  sound : Log.Sound base log
  memory : ledger.memory.rows = log.finalRows base
  stored : ledger.stored.rows = log.storedRows base
  memorySequence : ledger.memory.sequence = base.sequence + log.created.length
  storedSequence : ledger.stored.sequence = base.sequence + log.created.length

namespace Log

variable {log later : Log} {row : Profile}

/-- The version of a row depends on the first offer of its key and on its link. -/
theorem current_congr (offers : managed row = true →
      later.first row.subscriptionKey = log.first row.subscriptionKey)
    (links : LinkedMap.get row.id later.links = LinkedMap.get row.id log.links) :
    later.current row = log.current row := by
  unfold current
  split
  next isManaged => rw [offers isManaged, links]
  next => rfl

theorem onDisk_congr (same : later.current row = log.current row)
    (links : LinkedMap.get row.id later.links = LinkedMap.get row.id log.links) :
    later.onDisk row = log.onDisk row := by
  rw [onDisk, onDisk, links, same]

/-- The rows of the base when no first offer and no link changes. -/
theorem map_current_congr {base : ProfileTable}
    (offers : ∀ row ∈ base.rows, managed row = true →
      later.first row.subscriptionKey = log.first row.subscriptionKey)
    (links : later.links = log.links) :
    base.rows.map later.current = base.rows.map log.current ∧
      base.rows.map later.onDisk = base.rows.map log.onDisk := by
  have same : ∀ row ∈ base.rows, later.current row = log.current row := fun row member =>
    current_congr (offers row member) (by rw [links])
  exact ⟨List.map_congr_left same, List.map_congr_left (fun row member =>
    onDisk_congr (same row member) (by rw [links]))⟩

end Log

namespace Records

variable {base : ProfileTable} {ledger : Ledger} {log : Log}

/-- Who holds a key. -/
theorem holder_memory (records : Records base ledger log) (key : Option String × String) :
    holder ledger.memory key =
      ((holder base key).map log.current).or ((log.newcomer key).map log.linked) := by
  rw [holder, records.memory, Log.finalRows, List.find?_append, List.find?_map, List.find?_map]
  congr 2
  · refine congrArg (List.find? · base.rows) (funext fun row => ?_)
    have same := log.sameRow_current row
    rw [Function.comp_apply, same.managed, same.subscriptionKey]
  · refine List.find?_congr ?_
    intro row member
    have isManaged : managed (log.linked row) = true := by
      simp [managed, Log.linked, records.sound.active row member]
    rw [Function.comp_apply, isManaged, Bool.true_and]
    rfl

theorem base_lt_created (records : Records base ledger log) {row created : Profile}
    (member : row ∈ base.rows) (createdMember : created ∈ log.created) :
    row.id < created.id := by
  have bound := base.bounded row member
  have above := (records.sound.numbered created createdMember).1
  omega

/-- A row that no document offered has no link. -/
theorem unlinked (records : Records base ledger log) {row : Profile} (member : row ∈ base.rows)
    (silent : ¬ Listed log.offered row.subscriptionKey) :
    LinkedMap.get row.id log.links = none := by
  rw [← Option.not_isSome_iff_eq_none]
  intro isLinked
  rcases records.sound.known row.id isLinked with
    ⟨other, otherMember, _, listed, sameId⟩ | ⟨created, createdMember, sameId⟩
  · rw [base.eq_of_id_eq otherMember member sameId] at listed
    exact silent listed
  · have less := records.base_lt_created member createdMember
    omega

/-- An offer under a key that was offered before, or that the base does not hold,
leaves the rows of the base as they are. -/
theorem map_offered {it : Profile} (created : List Profile)
    (settled : Listed log.offered it.subscriptionKey ∨ holder base it.subscriptionKey = none) :
    base.rows.map ({ log with offered := log.offered ++ [it], created := created } : Log).current =
        base.rows.map log.current ∧
      base.rows.map ({ log with offered := log.offered ++ [it], created := created } : Log).onDisk =
        base.rows.map log.onDisk := by
  refine Log.map_current_congr ?_ rfl
  intro row member isManaged
  rw [Log.first_offered]
  by_cases sameKey : it.subscriptionKey = row.subscriptionKey
  · rcases settled with listed | vacant
    · rw [sameKey, ← Log.first_isSome, Option.isSome_iff_exists] at listed
      obtain ⟨found, isFirst⟩ := listed
      rw [isFirst]
      rfl
    · exact absurd sameKey.symm (holder_eq_none vacant member isManaged)
  · rw [if_neg sameKey, Option.or_none]

/-- Such an offer, when its key has a row. -/
theorem again (records : Records base ledger log) {it : Profile}
    (sound : Log.Sound base { log with offered := log.offered ++ [it] })
    (settled : Listed log.offered it.subscriptionKey ∨ holder base it.subscriptionKey = none) :
    Records base ledger { log with offered := log.offered ++ [it] } := by
  obtain ⟨sameCurrent, sameOnDisk⟩ := map_offered log.created settled
  exact
    { sound := sound
      memory := by rw [records.memory, Log.finalRows, Log.finalRows, sameCurrent]; rfl
      stored := by rw [records.stored, Log.storedRows, Log.storedRows, sameOnDisk]; rfl
      memorySequence := records.memorySequence
      storedSequence := records.storedSequence }

/-- The first offer of a key that the base holds. -/
theorem revive (records : Records base ledger log) (distinct : DistinctKeys base)
    {it row : Profile} (fresh : JsonParser.Fresh it)
    (sound : Log.Sound base { log with offered := log.offered ++ [it] })
    (member : row ∈ base.rows) (isManaged : managed row = true)
    (sameKey : row.subscriptionKey = it.subscriptionKey)
    (silent : ¬ Listed log.offered it.subscriptionKey) :
    Records base { ledger with memory := ledger.memory.write (takeOver (log.current row) it) }
      { log with offered := log.offered ++ [it] } := by
  rw [← sameKey] at silent
  have noLink := records.unlinked member silent
  have isFirst : ({ log with offered := log.offered ++ [it] } : Log).first row.subscriptionKey =
      some it := by
    rw [Log.first_offered, Log.first_eq_none.mpr silent, if_pos sameKey.symm]
    rfl
  have here : ({ log with offered := log.offered ++ [it] } : Log).current row =
      takeOver (log.current row) it := by
    rw [Log.current, Log.current, if_pos isManaged, if_pos isManaged, isFirst,
      Log.first_eq_none.mpr silent]
    dsimp only
    rw [noLink, retire]
    split
    · simp [takeOver, fresh.2]
    · simp [takeOver, fresh.2]
  have elsewhere : ∀ other ∈ base.rows, other.id ≠ row.id →
      ({ log with offered := log.offered ++ [it] } : Log).current other = log.current other := by
    intro other otherMember differs
    refine Log.current_congr ?_ rfl
    intro otherManaged
    rw [Log.first_offered, if_neg, Option.or_none]
    intro same
    have equal := distinct row member other otherMember isManaged otherManaged
      (sameKey.trans same)
    exact differs (by rw [equal])
  have valueId : (takeOver (log.current row) it).id = row.id := log.current_id row
  constructor
  case sound => exact sound
  case memory =>
    rw [ProfileTable.write_rows, records.memory, Log.finalRows, Log.finalRows,
      Rows.replace_append]
    congr 1
    · refine Rows.replace_map ?_
      intro other otherMember
      rw [log.current_id, valueId]
      by_cases sameId : other.id = row.id
      · rw [if_pos sameId, base.eq_of_id_eq otherMember member sameId, here]
      · rw [if_neg sameId, elsewhere other otherMember sameId]
    · refine Rows.replace_map ?_
      intro created createdMember
      have less := records.base_lt_created member createdMember
      rw [if_neg]
      · rfl
      · rw [valueId]
        exact fun same => Int.ne_of_gt less same
  case stored =>
    rw [records.stored, Log.storedRows, Log.storedRows]
    congr 1
    refine List.map_congr_left ?_
    intro other otherMember
    by_cases sameId : other.id = row.id
    · rw [Log.onDisk, Log.onDisk, sameId, noLink]
      rfl
    · exact (Log.onDisk_congr (elsewhere other otherMember sameId) rfl).symm
  case memorySequence => exact records.memorySequence
  case storedSequence => exact records.storedSequence

theorem memory_orders (records : Records base ledger log) :
    ledger.memory.rows.map Profile.userOrder =
      (base.rows ++ log.created).map Profile.userOrder := by
  rw [records.memory, Log.finalRows, List.map_append, List.map_append, List.map_map, List.map_map]
  congr 1
  refine List.map_congr_left ?_
  intro row _
  exact congrArg Prod.snd (log.sameRow_current row).place.symm

theorem stored_orders (records : Records base ledger log) :
    ledger.stored.rows.map Profile.userOrder =
      (base.rows ++ log.created).map Profile.userOrder := by
  rw [records.stored, Log.storedRows, List.map_append, List.map_append, List.map_map, List.map_map]
  congr 1
  refine List.map_congr_left ?_
  intro row _
  exact congrArg Prod.snd (log.sameRow_onDisk row).place.symm

/-- The first offer of a key that nobody holds. -/
theorem grow (records : Records base ledger log) {it : Profile} (fresh : JsonParser.Fresh it)
    (sound : Log.Sound base { log with
      offered := log.offered ++ [it], created := log.created ++ [Log.newRow base log it] })
    (vacant : holder base it.subscriptionKey = none) :
    Records base
      { memory := (ProfileManager.createProfile ledger.memory
          { it with subscription := .active }).2
        stored := (ProfileManager.createProfile ledger.stored
          { it with subscription := .active }).2 }
      { log with
        offered := log.offered ++ [it], created := log.created ++ [Log.newRow base log it] } := by
  obtain ⟨sameCurrent, sameOnDisk⟩ :=
    map_offered (log.created ++ [Log.newRow base log it]) (Or.inr vacant)
  have noLink : LinkedMap.get (Log.newRow base log it).id log.links = none := by
    rw [← Option.not_isSome_iff_eq_none]
    intro isLinked
    have newId : (Log.newRow base log it).id = base.sequence + log.created.length + 1 := rfl
    rcases records.sound.known _ isLinked with ⟨row, member, _, _, sameId⟩ | ⟨row, member, sameId⟩
    · have bound := base.bounded row member
      omega
    · have bound := (records.sound.numbered row member).2
      omega
  have made : ∀ table : ProfileTable,
      table.rows.map Profile.userOrder = (base.rows ++ log.created).map Profile.userOrder →
      table.sequence = base.sequence + log.created.length →
      (ProfileManager.createProfile table { it with subscription := .active }).1 =
        log.linked (Log.newRow base log it) := by
    intro table orders sequence
    rw [Log.linked, noLink, ← fresh.2]
    simp only [ProfileManager.createProfile, ProfileTable.create, ProfileTable.nextOrder, orders,
      sequence]
    rfl
  constructor
  case sound => exact sound
  case memory =>
    rw [ProfileManager.createProfile_rows, made _ records.memory_orders records.memorySequence,
      records.memory, Log.finalRows, Log.finalRows, sameCurrent, List.map_append,
      List.append_assoc]
    rfl
  case stored =>
    rw [ProfileManager.createProfile_rows, made _ records.stored_orders records.storedSequence,
      records.stored, Log.storedRows, Log.storedRows, sameOnDisk, List.map_append,
      List.append_assoc]
    rfl
  case memorySequence =>
    rw [ProfileManager.createProfile_sequence, records.memorySequence, List.length_append,
      List.length_singleton]
    omega
  case storedSequence =>
    rw [ProfileManager.createProfile_sequence, records.storedSequence, List.length_append,
      List.length_singleton]
    omega

/-- Every offer. -/
theorem offer (records : Records base ledger log) (distinct : DistinctKeys base)
    {it : Profile} (fresh : JsonParser.Fresh it) :
    (ledger.offer it).1 = (log.offer base it).1 ∧
      Records base (ledger.offer it).2 (log.offer base it).2 := by
  have sound := (records.sound.offer it).1
  have whose := records.holder_memory it.subscriptionKey
  rcases Log.offer_cases base log it with ⟨row, held, result⟩ | ⟨vacant, row, found, result⟩ |
    ⟨vacant, absent, result⟩
  · obtain ⟨member, isManaged, sameKey⟩ := holder_mem held
    have status := log.current_active_iff isManaged
    rw [sameKey] at status
    rw [result] at sound ⊢
    rw [held, Option.map_some, Option.some_or] at whose
    rw [Ledger.offer, whose]
    dsimp only
    by_cases listed : Listed log.offered it.subscriptionKey
    · rw [if_pos (status.mpr listed)]
      exact ⟨log.current_id row, records.again sound (Or.inl listed)⟩
    · rw [if_neg (fun active => listed (status.mp active))]
      exact ⟨log.current_id row,
        records.revive distinct fresh sound member isManaged sameKey listed⟩
  · obtain ⟨member, _⟩ := Log.newcomer_mem found
    have active : (log.linked row).subscription = .active := records.sound.active row member
    rw [result] at sound ⊢
    rw [vacant, found, Option.map_none, Option.none_or, Option.map_some] at whose
    rw [Ledger.offer, whose]
    dsimp only
    rw [if_pos active]
    exact ⟨rfl, records.again sound (Or.inr vacant)⟩
  · rw [result] at sound ⊢
    rw [vacant, absent, Option.map_none, Option.map_none, Option.none_or] at whose
    rw [Ledger.offer, whose]
    refine ⟨?_, records.grow fresh sound vacant⟩
    dsimp only
    rw [ProfileManager.createProfile_id, records.memorySequence]
    rfl

/-- Setting a link writes one and the same row into both tables. -/
theorem write_link (records : Records base ledger log) {id target : Int} {value : Profile}
    (isKnown : log.Known base id) (valueId : value.id = id)
    (inBase : ∀ row ∈ base.rows, row.id = id →
      ({ log with links := LinkedMap.put id target log.links } : Log).current row = value)
    (inCreated : ∀ row ∈ log.created, row.id = id →
      ({ log with links := LinkedMap.put id target log.links } : Log).linked row = value) :
    Records base { memory := ledger.memory.write value, stored := ledger.stored.write value }
      { log with links := LinkedMap.put id target log.links } := by
  have elsewhere : ∀ row : Profile, row.id ≠ id →
      ({ log with links := LinkedMap.put id target log.links } : Log).current row =
        log.current row := by
    intro row differs
    exact Log.current_congr (fun _ => rfl) (LinkedMap.get_put_other differs _ _)
  have created : Rows.replace Profile.id value (log.created.map log.linked) =
      log.created.map ({ log with links := LinkedMap.put id target log.links } : Log).linked := by
    refine Rows.replace_map ?_
    intro row member
    have rowId : (log.linked row).id = row.id := rfl
    rw [rowId, valueId]
    by_cases sameId : row.id = id
    · rw [if_pos sameId, inCreated row member sameId]
    · rw [if_neg sameId, Log.linked, Log.linked, LinkedMap.get_put_other sameId]
  constructor
  case sound => exact records.sound.link isKnown
  case memory =>
    rw [ProfileTable.write_rows, records.memory, Log.finalRows, Log.finalRows,
      Rows.replace_append, created]
    refine congrArg (· ++ _) (Rows.replace_map ?_)
    intro row member
    rw [log.current_id, valueId]
    by_cases sameId : row.id = id
    · rw [if_pos sameId, inBase row member sameId]
    · rw [if_neg sameId, elsewhere row sameId]
  case stored =>
    rw [ProfileTable.write_rows, records.stored, Log.storedRows, Log.storedRows,
      Rows.replace_append, created]
    refine congrArg (· ++ _) (Rows.replace_map ?_)
    intro row member
    rw [(log.sameRow_onDisk row).id, valueId]
    by_cases sameId : row.id = id
    · rw [if_pos sameId, Log.onDisk, sameId, LinkedMap.get_put_self, Option.isSome_some,
        if_pos rfl, inBase row member sameId]
    · rw [if_neg sameId]
      exact Log.onDisk_congr (elsewhere row sameId) (LinkedMap.get_put_other sameId _ _)
  case memorySequence => exact records.memorySequence
  case storedSequence => exact records.storedSequence

/-- Every link of a profile that was answered. -/
theorem link (records : Records base ledger log) {id target : Int}
    (isKnown : log.Known base id) :
    (ledger.link id target).2 = true ∧
      Records base (ledger.link id target).1
        { log with links := LinkedMap.put id target log.links } := by
  rcases isKnown with ⟨row, member, isManaged, listed, sameId⟩ | ⟨row, member, sameId⟩
  · have inMemory : log.current row ∈ ledger.memory.rows := by
      rw [records.memory]
      exact List.mem_append_left _ (List.mem_map_of_mem member)
    have found : ledger.memory.get id = some (log.current row) :=
      ledger.memory.get_eq_some_iff.mpr ⟨inMemory, (log.current_id row).trans sameId⟩
    rw [Ledger.link, found]
    refine ⟨rfl, records.write_link (Or.inl ⟨row, member, isManaged, listed, sameId⟩)
      ((log.current_id row).trans sameId) ?_ ?_⟩
    · intro other otherMember otherId
      obtain ⟨it, isFirst⟩ := Option.isSome_iff_exists.mp (Log.first_isSome.mpr listed)
      rw [base.eq_of_id_eq otherMember member (otherId.trans sameId.symm), Log.current,
        Log.current, if_pos isManaged, if_pos isManaged, isFirst]
      have sameFirst : ({ log with links := LinkedMap.put id target log.links } : Log).first
          row.subscriptionKey = some it := isFirst
      rw [sameFirst]
      dsimp only
      rw [sameId, LinkedMap.get_put_self]
    · intro created createdMember createdId
      have less := records.base_lt_created member createdMember
      omega
  · have inMemory : log.linked row ∈ ledger.memory.rows := by
      rw [records.memory]
      exact List.mem_append_right _ (List.mem_map_of_mem member)
    have found : ledger.memory.get id = some (log.linked row) :=
      ledger.memory.get_eq_some_iff.mpr ⟨inMemory, sameId⟩
    rw [Ledger.link, found]
    refine ⟨rfl, records.write_link (Or.inr ⟨row, member, sameId⟩) sameId ?_ ?_⟩
    · intro other otherMember otherId
      have less := records.base_lt_created otherMember member
      omega
    · intro other otherMember otherId
      have otherInMemory : log.linked other ∈ ledger.memory.rows := by
        rw [records.memory]
        exact List.mem_append_right _ (List.mem_map_of_mem otherMember)
      have equal := ledger.memory.eq_of_id_eq otherInMemory inMemory (otherId.trans sameId.symm)
      rw [← equal, Log.linked, Log.linked, otherId, LinkedMap.get_put_self]

/-- The ledger and the log answer alike. -/
theorem simulates (distinct : DistinctKeys base) :
    JsonParser.Simulates Ledger.sink (Log.sink base) (Records base) (Log.Known base) where
  create := by
    intro ledger log it fresh records
    obtain ⟨answer, next⟩ := records.offer distinct fresh
    obtain ⟨_, answered, kept⟩ := records.sound.offer it
    exact ⟨answer, next, answered, kept⟩
  getAllProfiles := fun records => records.stored
  setFallback := by
    intro ledger log id target records isKnown
    obtain ⟨flag, next⟩ := records.link isKnown
    exact ⟨flag, next, fun _ known => known⟩

theorem foldl_absorb (records : Records base ledger log) (distinct : DistinctKeys base)
    (runtime : Runtime) (feature : Option Profile) (jsons : List (Option Json)) :
    Records base (jsons.foldl (Ledger.absorb runtime feature) ledger)
      (jsons.foldl (Log.absorb base runtime feature) log) := by
  induction jsons generalizing ledger log with
  | nil => exact records
  | cons json rest ih =>
      refine ih ?_
      cases json with
      | none => exact records
      | some json => exact ((simulates distinct).parseJson runtime feature json records).2

/-- The ledger of a table starts with the empty log. -/
theorem start (table : ProfileTable) :
    Records (table.restrict (kept table)) (Ledger.start table) {} where
  sound := Log.sound_empty _
  memory := by
    rw [Log.finalRows, List.map_nil, List.append_nil]
    refine List.map_congr_left ?_
    intro row _
    unfold Log.current
    split
    · rfl
    next user =>
      rw [retire, if_neg]
      intro active
      exact user (by simp [managed, active])
  stored := by
    rw [Log.storedRows, List.map_nil, List.append_nil]
    exact (List.map_id _).symm
  memorySequence := (Int.add_zero _).symm
  storedSequence := (Int.add_zero _).symm

end Records

/-- A synchronisation ends with the rows its log describes. -/
theorem run_records (runtime : Runtime) (feature : Option Profile) (table : ProfileTable)
    (jsons : List (Option Json)) :
    Records (table.restrict (kept table)) (Ledger.run runtime feature table jsons)
      (Log.run (table.restrict (kept table)) runtime feature jsons) :=
  (Records.start table).foldl_absorb (distinctKeys_kept table) runtime feature jsons

end AlienConnection.Subscription
