import AlienConnection.Subscription.LateResolution
import AlienConnection.Subscription.PlainDocuments
import AlienConnection.Subscription.ServerIdentity

/-!
# Synchronising twice

A second synchronisation with the same documents finds the rows that the first one
left. It changes none of them exactly when the fallbacks of the documents stand for the
same rows then as while the first one was still at work. Documents that have no
`udp_fallback` are always of this kind. With fallbacks this is not always so: one that
had to be created the first time is found the second time, is not offered, and its
profile retires.
-/

namespace AlienConnection.Subscription

open Database Library

/-- A table in which the documents of a log change nothing: every offered profile has
its row, rows that are offered look like their first offer, and the others are
obsolete already. -/
structure Settled (table : ProfileTable) (log : Log) : Prop where
  held : ∀ it ∈ log.offered, (holder table it.subscriptionKey).isSome = true
  present : ∀ row ∈ table.rows, managed row = true →
    ∀ it, log.first row.subscriptionKey = some it →
      row.subscription = .active ∧ row.password = it.password ∧ row.method = it.method ∧
        row.plugin = it.plugin ∧ row.udpFallback = LinkedMap.get row.id log.links
  absent : ∀ row ∈ table.rows, managed row = true →
    ¬ Listed log.offered row.subscriptionKey → row.subscription = .obsolete

/-- A table with distinct keys has nothing to drop. -/
theorem baseOf_eq_self {table : ProfileTable} (distinct : DistinctKeys table) :
    baseOf table = table := by
  refine ProfileTable.ext_rows (List.filter_eq_self.mpr ?_) rfl
  intro row member
  by_contra dropped
  obtain ⟨isManaged, earlier, earlierMember, earlierManaged, sameKey, less⟩ :=
    laterDuplicate_of_not_kept (Bool.eq_false_iff.mpr dropped)
  rw [distinct earlier earlierMember row member earlierManaged isManaged sameKey] at less
  exact Int.lt_irrefl _ less

namespace Log

variable {table : ProfileTable} {log : Log} {row : Profile}

/-- When the version of a row is the row. -/
theorem current_eq_self_iff (isManaged : managed row = true) :
    log.current row = row ↔
      (∀ it, log.first row.subscriptionKey = some it →
        row.subscription = .active ∧ row.password = it.password ∧ row.method = it.method ∧
          row.plugin = it.plugin ∧ row.udpFallback = LinkedMap.get row.id log.links) ∧
      (¬ Listed log.offered row.subscriptionKey → row.subscription = .obsolete) := by
  rw [current, if_pos isManaged, ← first_eq_none]
  cases log.first row.subscriptionKey with
  | none =>
      dsimp only
      constructor
      · intro same
        refine ⟨fun _ none => (by cases none), fun _ => obsolete_of_managed isManaged ?_⟩
        rw [← same]
        exact not_active_retire row
      · rintro ⟨_, obsolete⟩
        rw [retire, if_neg]
        rw [obsolete rfl]
        exact SubscriptionStatus.noConfusion
  | some it =>
      dsimp only
      constructor
      · intro same
        refine ⟨?_, fun none => by cases none⟩
        intro other isFirst
        cases isFirst
        rw [← same]
        exact ⟨rfl, rfl, rfl, rfl, rfl⟩
      · rintro ⟨alike, _⟩
        obtain ⟨active, password, method, plugin, link⟩ := alike it rfl
        rw [takeOver, ← active, ← password, ← method, ← plugin, ← link]

/-- A settled table has a row for every offer. -/
theorem created_of_settled (sound : log.Sound table) (settled : Settled table log) :
    log.created = [] := by
  rw [List.eq_nil_iff_forall_not_mem]
  intro row member
  obtain ⟨it, offered, sameKey⟩ := sound.listed row member
  have held := settled.held it offered
  rw [sameKey, sound.vacant row member] at held
  cases held

/-- The rows stay exactly when the table is settled. -/
theorem finalRows_eq_iff (sound : log.Sound table) :
    log.finalRows table = table.rows ↔ Settled table log := by
  constructor
  · intro same
    have nobody : log.created = [] := by
      have lengths := congrArg List.length same
      rw [finalRows, List.length_append, List.length_map, List.length_map] at lengths
      exact List.length_eq_zero_iff.mp (by omega)
    rw [finalRows, nobody, List.map_nil, List.append_nil] at same
    have pointwise : ∀ row ∈ table.rows, log.current row = row := by
      intro row member
      exact List.map_inj_left.mp (same.trans (List.map_id _).symm) row member
    constructor
    case held =>
      intro it member
      rcases sound.covered it member with held | ⟨_, created, _⟩
      · exact held
      · rw [nobody] at created
        cases created
    case present =>
      intro row member isManaged
      exact ((current_eq_self_iff isManaged).mp (pointwise row member)).1
    case absent =>
      intro row member isManaged
      exact ((current_eq_self_iff isManaged).mp (pointwise row member)).2
  · intro settled
    rw [finalRows, created_of_settled sound settled, List.map_nil, List.append_nil]
    have pointwise : ∀ row ∈ table.rows, log.current row = row := by
      intro row member
      cases isManaged : managed row with
      | false => exact log.current_user isManaged
      | true =>
          exact (current_eq_self_iff isManaged).mpr
            ⟨settled.present row member isManaged, settled.absent row member isManaged⟩
    exact (List.map_congr_left pointwise).trans (List.map_id _)

/-- A row of the result looks like the first offer of its key. -/
theorem offerOf_finalRows (sound : log.Sound (baseOf table))
    (member : row ∈ log.finalRows (baseOf table)) (isManaged : managed row = true) {it : Profile}
    (isFirst : log.first row.subscriptionKey = some it) :
    offerOf row = offerOf it ∧ row.udpFallback = LinkedMap.get row.id log.links := by
  rcases mem_finalRows.mp member with ⟨old, _, _, rfl⟩ | ⟨created, createdMember, rfl⟩
  · have same := log.sameRow_current old
    rw [same.managed] at isManaged
    rw [same.subscriptionKey] at isFirst
    have sameKey : old.subscriptionKey = it.subscriptionKey := by
      have matched := List.find?_some isFirst
      exact (of_decide_eq_true matched).symm
    rw [current, if_pos isManaged, isFirst]
    refine ⟨?_, rfl⟩
    rw [offerOf, offerOf, ← sameKey]
    rfl
  · obtain ⟨first, firstFound, alike⟩ := sound.firsts created createdMember
    have sameFirst : first = it := Option.some.inj (firstFound.symm.trans isFirst)
    rw [← sameFirst, alike]
    exact ⟨rfl, rfl⟩

/-- The first offers of two logs that were offered alike. -/
theorem offerOf_first {log' : Log} (alike : log.offered.map offerOf = log'.offered.map offerOf)
    (key : Option String × String) :
    (log.first key).map offerOf = (log'.first key).map offerOf := by
  have byOffer : ∀ log : Log, (log.first key).map offerOf =
      (log.offered.map offerOf).find? (fun offer => decide (offer.key = key)) := by
    intro log
    rw [List.find?_map]
    rfl
  rw [byOffer, byOffer, alike]

/-- A profile that may be linked has a row in the result. -/
theorem Known.mem_finalRows {id : Int} (sound : log.Sound (baseOf table))
    (known : log.Known (baseOf table) id) :
    ∃ row ∈ log.finalRows (baseOf table), managed row = true ∧
      Listed log.offered row.subscriptionKey ∧ row.id = id := by
  rcases known with ⟨old, inBase, isManaged, listed, sameId⟩ | ⟨created, member, sameId⟩
  · obtain ⟨inside, isKept⟩ := List.mem_filter.mp inBase
    have same := log.sameRow_current old
    refine ⟨log.current old, current_mem inside isKept, same.managed.trans isManaged, ?_,
      (log.current_id old).trans sameId⟩
    rw [same.subscriptionKey]
    exact listed
  · refine ⟨log.linked created, Log.mem_finalRows.mpr (Or.inr ⟨created, member, rfl⟩), ?_,
      sound.listed created member, sameId⟩
    simp [managed, linked, sound.active created member]

end Log

/-! ## The table that a synchronisation leaves -/

section

variable {table first : ProfileTable} {log again : Log}

/-- Logs with the same first offers list the same keys. -/
theorem listed_iff_of_alike
    (offers : ∀ key, (log.first key).map offerOf = (again.first key).map offerOf)
    (key : Option String × String) : Listed log.offered key ↔ Listed again.offered key := by
  rw [← Log.first_isSome, ← Log.first_isSome, ← Option.isSome_map, offers, Option.isSome_map]

theorem holder_of_listed (sound : log.Sound (baseOf table))
    (rows : first.rows = log.finalRows (baseOf table)) {key : Option String × String}
    (listed : Listed log.offered key) : (holder first key).isSome = true := by
  obtain ⟨row, rowMember, isManaged, sameKey⟩ := Log.exists_finalRows sound listed
  rw [← rows] at rowMember
  rw [← Option.ne_none_iff_isSome]
  intro missing
  exact holder_eq_none missing rowMember isManaged sameKey

/-- The rows that a synchronisation leaves look like first offers that are alike. -/
theorem columns_of_alike (sound : log.Sound (baseOf table))
    (rows : first.rows = log.finalRows (baseOf table))
    (offers : ∀ key, (log.first key).map offerOf = (again.first key).map offerOf)
    {row it : Profile} (member : row ∈ first.rows) (isManaged : managed row = true)
    (isFirst : again.first row.subscriptionKey = some it) :
    row.subscription = .active ∧ offerOf row = offerOf it ∧
      row.udpFallback = LinkedMap.get row.id log.links := by
  rw [rows] at member
  have found := offers row.subscriptionKey
  rw [isFirst, Option.map_some, Option.map_eq_some_iff] at found
  obtain ⟨before, beforeFirst, sameOffer⟩ := found
  obtain ⟨alike, link⟩ := Log.offerOf_finalRows sound member isManaged beforeFirst
  refine ⟨(Log.status_finalRows sound member isManaged).mpr ?_, alike.trans sameOffer, link⟩
  rw [← Log.first_isSome, beforeFirst]
  rfl

/-- The rows that a synchronisation leaves fit every log with the same first offers. -/
theorem fits_of_alike (sound : log.Sound (baseOf table))
    (rows : first.rows = log.finalRows (baseOf table))
    (offers : ∀ key, (log.first key).map offerOf = (again.first key).map offerOf) :
    Fits first again.offered where
  held := fun it member => holder_of_listed sound rows
    ((listed_iff_of_alike offers it.subscriptionKey).mpr ⟨it, member, rfl⟩)
  alike := by
    intro row member isManaged it isFirst
    obtain ⟨_, columns, _⟩ := columns_of_alike sound rows offers member isManaged isFirst
    exact ⟨congrArg Offer.password columns, congrArg Offer.method columns,
      congrArg Offer.plugin columns⟩

/-- The result of a synchronisation is settled for every log with the same first offers
and the same links. -/
theorem settled_of_alike (sound : log.Sound (baseOf table))
    (rows : first.rows = log.finalRows (baseOf table))
    (offers : ∀ key, (log.first key).map offerOf = (again.first key).map offerOf)
    (links : ∀ id, LinkedMap.get id log.links = LinkedMap.get id again.links) :
    Settled first again where
  held := (fits_of_alike sound rows offers).held
  present := by
    intro row member isManaged it isFirst
    obtain ⟨active, columns, link⟩ :=
      columns_of_alike sound rows offers member isManaged isFirst
    exact ⟨active, congrArg Offer.password columns, congrArg Offer.method columns,
      congrArg Offer.plugin columns, link.trans (links row.id)⟩
  absent := by
    intro row member isManaged unlisted
    rw [rows] at member
    refine obsolete_of_managed isManaged ?_
    intro active
    exact unlisted ((listed_iff_of_alike offers _).mp
      ((Log.status_finalRows sound member isManaged).mp active))

theorem Settled.fits (settled : Settled first again) : Fits first again.offered where
  held := settled.held
  alike := by
    intro row member isManaged it isFirst
    obtain ⟨_, password, method, plugin, _⟩ := settled.present row member isManaged it isFirst
    exact ⟨password, method, plugin⟩

/-- What is offered to a settled table was offered before. -/
theorem Settled.listed_iff (settled : Settled first again) (sound : log.Sound (baseOf table))
    (rows : first.rows = log.finalRows (baseOf table)) (key : Option String × String) :
    Listed log.offered key ↔ Listed again.offered key := by
  constructor
  · intro listed
    obtain ⟨row, member, isManaged, rfl⟩ := Log.exists_finalRows sound listed
    have active := (Log.status_finalRows sound member isManaged).mpr listed
    rw [← rows] at member
    by_contra unlisted
    rw [settled.absent row member isManaged unlisted] at active
    cases active
  · rintro ⟨it, offered, rfl⟩
    obtain ⟨row, held⟩ := Option.isSome_iff_exists.mp (settled.held it offered)
    obtain ⟨member, isManaged, sameKey⟩ := holder_mem held
    obtain ⟨other, isFirst⟩ := Option.isSome_iff_exists.mp
      (Log.first_isSome.mpr ⟨it, offered, sameKey.symm⟩)
    obtain ⟨active, _⟩ := settled.present row member isManaged other isFirst
    rw [rows] at member
    rw [← sameKey]
    exact (Log.status_finalRows sound member isManaged).mp active

/-- To a settled table the same servers are offered first. -/
theorem Settled.offers (settled : Settled first again) (sound : log.Sound (baseOf table))
    (rows : first.rows = log.finalRows (baseOf table)) (key : Option String × String) :
    (log.first key).map offerOf = (again.first key).map offerOf := by
  have listedIff := settled.listed_iff sound rows key
  rw [← Log.first_isSome, ← Log.first_isSome] at listedIff
  cases before : log.first key with
  | none =>
      rw [before] at listedIff
      cases after : again.first key with
      | none => rfl
      | some other =>
          rw [after] at listedIff
          cases listedIff.mpr rfl
  | some it =>
      rw [before] at listedIff
      obtain ⟨other, isFirst⟩ := Option.isSome_iff_exists.mp (listedIff.mp rfl)
      obtain ⟨row, member, isManaged, rfl⟩ := Log.exists_finalRows sound
        (Log.first_isSome.mp (by rw [before]; rfl))
      have alike := (Log.offerOf_finalRows sound member isManaged before).1
      rw [← rows] at member
      obtain ⟨_, password, method, plugin, _⟩ :=
        settled.present row member isManaged other isFirst
      have sameKey : row.subscriptionKey = other.subscriptionKey := by
        have matched := List.find?_some isFirst
        exact (of_decide_eq_true matched).symm
      rw [isFirst, Option.map_some, Option.map_some, ← alike, offerOf, offerOf, sameKey, password,
        method, plugin]

/-- In a settled table the same links are set. -/
theorem Settled.links (settled : Settled first again) (sound : log.Sound (baseOf table))
    (rows : first.rows = log.finalRows (baseOf table)) (soundAgain : again.Sound first)
    (id : Int) : LinkedMap.get id log.links = LinkedMap.get id again.links := by
  have ofRow : ∀ row ∈ first.rows, managed row = true → Listed again.offered row.subscriptionKey →
      LinkedMap.get row.id log.links = LinkedMap.get row.id again.links := by
    intro row member isManaged listed
    obtain ⟨it, isFirst⟩ := Option.isSome_iff_exists.mp (Log.first_isSome.mpr listed)
    obtain ⟨_, _, _, _, link⟩ := settled.present row member isManaged it isFirst
    obtain ⟨_, _, before⟩ := columns_of_alike sound rows (settled.offers sound rows) member
      isManaged isFirst
    exact before.symm.trans link
  cases linked : LinkedMap.get id log.links with
  | some target =>
      obtain ⟨row, member, isManaged, listed, rfl⟩ :=
        (sound.known id (by rw [linked]; rfl)).mem_finalRows sound
      rw [← rows] at member
      rw [← linked]
      exact ofRow row member isManaged ((settled.listed_iff sound rows _).mp listed)
  | none =>
      cases linkedAgain : LinkedMap.get id again.links with
      | none => rfl
      | some target =>
          rcases soundAgain.known id (by rw [linkedAgain]; rfl) with
            ⟨row, member, isManaged, listed, rfl⟩ | ⟨row, member, _⟩
          · rw [← linked, ← linkedAgain]
            exact ofRow row member isManaged listed
          · rw [Log.created_of_settled soundAgain settled] at member
            cases member

end

/-- The table of a synchronisation is settled for its documents exactly when their
fallbacks are stable. -/
theorem settled_iff_stableFallbacks {runtime : Runtime} {table first : ProfileTable}
    {currentId : Int} {jsons : List (Option Json)}
    (sound : (syncLog runtime table currentId jsons).Sound (baseOf table))
    (rows : first.rows = (syncLog runtime table currentId jsons).finalRows (baseOf table))
    (soundAgain : (Log.run first runtime (featureOf first (remainingId table currentId))
      jsons).Sound first) :
    Settled first (Log.run first runtime (featureOf first (remainingId table currentId)) jsons) ↔
      StableFallbacks runtime table currentId jsons := by
  have late : lateLog runtime table currentId jsons = Log.runLate first.rows runtime
      (featureOf first (remainingId table currentId)) jsons := by
    rw [lateLog, remainingRows, ← rows]
    rfl
  constructor
  · intro settled
    have same := Log.run_eq_runLate (Or.inl settled.fits)
    rw [← late] at same
    rw [same] at settled soundAgain
    exact ⟨settled.offers sound rows, settled.links sound rows soundAgain⟩
  · intro stable
    have fits := fits_of_alike sound rows stable.offers
    rw [late] at fits
    rw [Log.run_eq_runLate (Or.inr fits), ← late]
    exact settled_of_alike sound rows stable.offers stable.links

/-- With stable fallbacks, an active row without a plugin comes from a profile object: a
fallback that stands for it would find it, and would not be offered. -/
theorem StableFallbacks.exists_profile {runtime : Runtime} {table : ProfileTable}
    {currentId : Int} {jsons : List (Option Json)}
    (stable : StableFallbacks runtime table currentId jsons)
    (sound : (syncLog runtime table currentId jsons).Sound (baseOf table)) {row : Profile}
    (member : row ∈ remainingRows runtime table currentId jsons)
    (active : row.subscription = .active) (noPlugin : row.plugin.getD "" = "") :
    ∃ profile ∈ jsons.flatMap (profilesOf runtime (featureOf table currentId)),
      offerOf profile = offerOf row := by
  have isManaged : managed row = true := by rw [managed, active]; rfl
  obtain ⟨it, isFirst⟩ := Option.isSome_iff_exists.mp
    (Log.first_isSome.mpr ((Log.status_finalRows sound member isManaged).mp active))
  have alike := (Log.offerOf_finalRows sound member isManaged isFirst).1
  have offers := stable.offers row.subscriptionKey
  rw [isFirst, Option.map_some, eq_comm, Option.map_eq_some_iff] at offers
  obtain ⟨late, lateFirst, sameOffer⟩ := offers
  have same : offerOf late = offerOf row := sameOffer.trans alike.symm
  have lateOffered := List.mem_of_find?_eq_some lateFirst
  rcases (Log.offered_foldlLate lateOffered).resolve_left List.not_mem_nil with
    ⟨json, inside, listed⟩ | missing
  · have mapped : offerOf late ∈
        (profilesOf runtime (featureOf table currentId) json).map offerOf := by
      rw [offers_profilesOf json]
      exact List.mem_map_of_mem listed
    obtain ⟨profile, profileListed, sameProfile⟩ := List.mem_map.mp mapped
    exact ⟨profile, List.mem_flatMap.mpr ⟨json, inside, profileListed⟩, sameProfile.trans same⟩
  · refine absurd ?_ (List.find?_eq_none.mp missing row member)
    obtain ⟨host, remotePort⟩ := Profile.sameServer_of_subscriptionKey (congrArg Offer.key same)
    have password : late.password = row.password := congrArg Offer.password same
    have method : late.method = row.method := congrArg Offer.method same
    rw [Profile.fallbackMatches, noPlugin, host, remotePort, password, method]
    simp

def serverObject (host : String) (more : List (String × Json)) : Json :=
  .object ([("server", .string host), ("server_port", .number "1" (some 1)),
    ("password", .string "p"), ("method", .string "m"), ("remarks", .string host)] ++ more)

def fallbackDocument : Json := serverObject "a" [("udp_fallback", serverObject "b" [])]

-- A fallback that the documents also list as a profile stands for the same row in both runs.
example :
    let documents := [some (Json.array [serverObject "b" [], fallbackDocument])]
    let once := createProfilesFromSubscription asciiRuntime .empty 0 documents
    (once.bind (fun result => createProfilesFromSubscription asciiRuntime result.1 result.2
      documents)).map (fun result => result.1.rows) = once.map (fun result => result.1.rows) := by
  decide +kernel

end AlienConnection.Subscription
