import AlienConnection.Database.ParseJson

/-!
# Rules for `parseJson`

What a caller has to show about its callback and its update to know what a whole
document does to its state: a rule for invariants that mention the profiles
offered so far, a rule for properties that nothing undoes, and a rule for two
sinks that answer alike.
-/

namespace AlienConnection.Database.JsonParser

open Library

/-- An entry of the fallback map while the profiles `rest` are still to come: its
key is one of them, or the id of a profile known to the state. -/
def Ready (known : Int → Prop) (rest : List Profile) (entry : FallbackKey × Profile) : Prop :=
  Fresh entry.2 ∧ ((∃ profile ∈ rest, entry.1 = .parsed profile) ∨
    ∃ id, entry.1 = .stored id ∧ known id)

/-- The entries of a document before its profiles are created. -/
theorem WellFormed.ready {parser : JsonParser} (wellFormed : WellFormed parser)
    (known : Int → Prop) : ∀ entry ∈ parser.fallbackMap, Ready known parser.profiles entry := by
  intro entry member
  obtain ⟨fresh, profile, listed, same⟩ := wellFormed.fallbacks entry member
  exact ⟨fresh, Or.inl ⟨profile, listed, same⟩⟩

/-- The entries of a document are filed under parsed profiles. -/
theorem WellFormed.get_stored {parser : JsonParser} (wellFormed : WellFormed parser) (id : Int) :
    LinkedMap.get (.stored id) parser.fallbackMap = none := by
  rw [LinkedMap.get_eq_none_iff]
  intro present
  obtain ⟨entry, member, same⟩ := List.mem_map.mp present
  obtain ⟨_, _, _, key⟩ := wellFormed.fallbacks entry member
  rw [same] at key
  cases key

/-- Taking one profile off the list makes its entry one of a known id. -/
theorem ready_next {known known' : Int → Prop} {profile : Profile} {rest : List Profile}
    {fallbackMap : List (FallbackKey × Profile)}
    (ready : ∀ entry ∈ fallbackMap, Ready known (profile :: rest) entry)
    (kept : ∀ id, known id → known' id) :
    ∀ entry ∈ LinkedMap.remove (.parsed profile) fallbackMap, Ready known' rest entry := by
  intro entry member
  obtain ⟨inside, differs⟩ := List.mem_filter.mp member
  obtain ⟨fresh, ⟨other, listed, same⟩ | ⟨id, same, isKnown⟩⟩ := ready entry inside
  · refine ⟨fresh, Or.inl ⟨other, ?_, same⟩⟩
    rcases List.mem_cons.mp listed with here | later
    · rw [same, here] at differs
      exact absurd rfl (of_decide_eq_true differs)
    · exact later
  · exact ⟨fresh, Or.inr ⟨id, same, kept id isKnown⟩⟩

theorem ready_put {known : Int → Prop} {rest : List Profile} {id : Int} {fallback : Profile}
    {fallbackMap : List (FallbackKey × Profile)}
    (ready : ∀ entry ∈ fallbackMap, Ready known rest entry) (fresh : Fresh fallback)
    (isKnown : known id) :
    ∀ entry ∈ LinkedMap.put (.stored id) fallback fallbackMap, Ready known rest entry := by
  intro entry member
  rcases LinkedMap.mem_put member with before | ⟨same, value⟩
  · exact ready entry before
  · exact ⟨by rw [value]; exact fresh, Or.inr ⟨id, same, isKnown⟩⟩

/-! ## Invariants -/

/-- A callback and an update that keep an invariant about the profiles offered so
far. `Known` ids are those the callback has answered with. -/
structure Keeps {σ : Type} (sink : ProfileSink σ) (Holds : List Profile → σ → Prop)
    (Known : σ → Int → Prop) : Prop where
  create : ∀ {offered state profile}, Fresh profile → Holds offered state →
    Holds (offered ++ [profile]) (sink.create state profile).2 ∧
      Known (sink.create state profile).2 (sink.create state profile).1 ∧
      ∀ id, Known state id → Known (sink.create state profile).2 id
  setFallback : ∀ {offered state id target}, Holds offered state → Known state id →
    (sink.setFallback state id target).2 = true ∧
      Holds offered (sink.setFallback state id target).1 ∧
      ∀ other, Known state other → Known (sink.setFallback state id target).1 other

def unmatched (listing fallbacks : List Profile) : List Profile :=
  fallbacks.filter (fun fallback => (listing.find? fallback.fallbackMatches).isNone)

theorem unmatched_append (listing first second : List Profile) :
    unmatched listing (first ++ second) = unmatched listing first ++ unmatched listing second :=
  List.filter_append first second

namespace Keeps

variable {σ : Type} {sink : ProfileSink σ} {Holds : List Profile → σ → Prop}
  {Known : σ → Int → Prop}

theorem createAll (keeps : Keeps sink Holds Known) (profiles : List Profile)
    (fresh : ∀ profile ∈ profiles, Fresh profile) {offered : List Profile} {state : σ}
    (holds : Holds offered state) {fallbackMap : List (FallbackKey × Profile)}
    (ready : ∀ entry ∈ fallbackMap, Ready (Known state) profiles entry)
    {fallbacks : List Profile} (drawn : ∀ entry ∈ fallbackMap, entry.2 ∈ fallbacks) :
    Holds (offered ++ profiles) (JsonParser.createAll sink fallbackMap state profiles).2 ∧
      ∀ entry ∈ (JsonParser.createAll sink fallbackMap state profiles).1,
        Ready (Known (JsonParser.createAll sink fallbackMap state profiles).2) [] entry ∧
          entry.2 ∈ fallbacks := by
  induction profiles generalizing offered state fallbackMap with
  | nil =>
      rw [List.append_nil]
      exact ⟨holds, fun entry member => ⟨ready entry member, drawn entry member⟩⟩
  | cons profile rest ih =>
      obtain ⟨next, answered, kept⟩ := keeps.create (fresh profile List.mem_cons_self) holds
      have freshRest : ∀ other ∈ rest, Fresh other := fun other member =>
        fresh other (List.mem_cons_of_mem _ member)
      have remaining := ready_next ready kept
      have drawnRest : ∀ entry ∈ LinkedMap.remove (.parsed profile) fallbackMap,
          entry.2 ∈ fallbacks := fun entry member =>
        drawn entry (List.mem_filter.mp member).1
      rw [List.append_cons]
      simp only [JsonParser.createAll]
      cases found : LinkedMap.get (FallbackKey.parsed profile) fallbackMap with
      | none => exact ih freshRest next remaining drawnRest
      | some fallback =>
          have member := LinkedMap.mem_of_get found
          refine ih freshRest next (ready_put remaining (ready _ member).1 answered) ?_
          intro entry put
          rcases LinkedMap.mem_put put with before | ⟨_, value⟩
          · exact drawnRest entry before
          · rw [value]
            exact drawn _ member

/-- A fallback is offered unless a listed profile stands for it. -/
theorem resolve (keeps : Keeps sink Holds Known) (listing : List Profile) {fallback : Profile}
    (fresh : Fresh fallback) {offered : List Profile} {state : σ} (holds : Holds offered state) :
    Holds (offered ++ unmatched listing [fallback])
        (JsonParser.resolve sink listing state fallback).2 ∧
      ∀ other, Known state other →
        Known (JsonParser.resolve sink listing state fallback).2 other := by
  unfold JsonParser.resolve unmatched
  cases matched : listing.find? fallback.fallbackMatches with
  | some row =>
      rw [List.filter_singleton, matched]
      exact ⟨by rw [← List.append_nil offered] at holds; exact holds, fun _ known => known⟩
  | none =>
      rw [List.filter_singleton, matched]
      obtain ⟨next, _, kept⟩ := keeps.create fresh holds
      exact ⟨next, kept⟩

/-- The loop of `finalize` offers the fallbacks that no listed profile stands for. -/
theorem finalizeAll_offers (keeps : Keeps sink Holds Known) (listing : List Profile)
    (entries : List (FallbackKey × Profile)) {offered : List Profile} {state : σ}
    (holds : Holds offered state) (ready : ∀ entry ∈ entries, Ready (Known state) [] entry) :
    (JsonParser.finalizeAll sink listing state entries).2 = true ∧
      Holds (offered ++ unmatched listing (entries.map Prod.snd))
        (JsonParser.finalizeAll sink listing state entries).1 := by
  induction entries generalizing offered state with
  | nil => exact ⟨rfl, by rw [← List.append_nil offered] at holds; exact holds⟩
  | cons entry rest ih =>
      obtain ⟨key, fallback⟩ := entry
      obtain ⟨fresh, ⟨_, impossible, _⟩ | ⟨id, same, isKnown⟩⟩ :=
        ready (key, fallback) List.mem_cons_self
      · cases impossible
      cases same
      obtain ⟨next, kept⟩ := keeps.resolve listing fresh holds
      obtain ⟨flag, updated, keptAgain⟩ := keeps.setFallback next (kept id isKnown)
      simp only [JsonParser.finalizeAll]
      rw [if_pos flag, List.map_cons, ← List.singleton_append, unmatched_append,
        ← List.append_assoc]
      apply ih updated
      intro entry member
      obtain ⟨freshEntry, ⟨_, impossible, _⟩ | ⟨other, sameKey, otherKnown⟩⟩ :=
        ready entry (List.mem_cons_of_mem _ member)
      · cases impossible
      · exact ⟨freshEntry, Or.inr ⟨other, sameKey, keptAgain other (kept other otherKnown)⟩⟩

theorem finalizeAll (keeps : Keeps sink Holds Known) (profiles : List Profile)
    (entries : List (FallbackKey × Profile)) {offered : List Profile} {state : σ}
    (holds : Holds offered state) {fallbacks : List Profile}
    (ready : ∀ entry ∈ entries, Ready (Known state) [] entry ∧ entry.2 ∈ fallbacks) :
    (JsonParser.finalizeAll sink profiles state entries).2 = true ∧
      ∃ extra, Holds (offered ++ extra) (JsonParser.finalizeAll sink profiles state entries).1 ∧
        ∀ profile ∈ extra, profile ∈ fallbacks := by
  obtain ⟨ok, last⟩ := keeps.finalizeAll_offers profiles entries holds
    (fun entry member => (ready entry member).1)
  refine ⟨ok, _, last, ?_⟩
  intro profile member
  obtain ⟨entry, inside, same⟩ := List.mem_map.mp (List.mem_filter.mp member).1
  exact same ▸ (ready entry inside).2

/-- A document offers all of its profiles, and besides them only fallbacks. -/
theorem parseJson (keeps : Keeps sink Holds Known) {runtime : Runtime}
    {feature : Option Profile} {json : Json} {parser : JsonParser}
    (processed : process runtime feature {} json = .ok parser) {offered : List Profile}
    {state : σ} (holds : Holds offered state) :
    (JsonParser.parseJson sink runtime feature json state).2 = true ∧
      ∃ extra, Holds (offered ++ parser.profiles ++ extra)
          (JsonParser.parseJson sink runtime feature json state).1 ∧
        ∀ profile ∈ extra, profile ∈ parser.fallbackMap.map Prod.snd := by
  have wellFormed := wellFormed_document processed
  obtain ⟨created, ready⟩ := keeps.createAll parser.profiles wellFormed.profiles holds
    (wellFormed.ready (Known state))
    (fun entry member => List.mem_map_of_mem member)
  simp only [JsonParser.parseJson, processed, JsonParser.finalize]
  exact keeps.finalizeAll _ _ created ready

end Keeps

/-! ## Properties that stay -/

/-- A property of the state that nothing undoes. -/
structure Preserves {σ : Type} (sink : ProfileSink σ) (Holds : σ → Prop) : Prop where
  create : ∀ {state} profile, Holds state → Holds (sink.create state profile).2
  setFallback : ∀ {state} id target, Holds state → Holds (sink.setFallback state id target).1

namespace Preserves

variable {σ : Type} {sink : ProfileSink σ} {Holds : σ → Prop}

theorem createAll (preserves : Preserves sink Holds) (profiles : List Profile)
    (fallbackMap : List (FallbackKey × Profile)) {state : σ} (holds : Holds state) :
    Holds (JsonParser.createAll sink fallbackMap state profiles).2 := by
  induction profiles generalizing fallbackMap state with
  | nil => exact holds
  | cons profile rest ih =>
      simp only [JsonParser.createAll]
      cases LinkedMap.get (FallbackKey.parsed profile) fallbackMap with
      | none => exact ih _ (preserves.create profile holds)
      | some fallback => exact ih _ (preserves.create profile holds)

theorem resolve (preserves : Preserves sink Holds) (profiles : List Profile) (fallback : Profile)
    {state : σ} (holds : Holds state) :
    Holds (JsonParser.resolve sink profiles state fallback).2 := by
  unfold JsonParser.resolve
  split
  · exact holds
  · exact preserves.create fallback holds

theorem finalizeAll (preserves : Preserves sink Holds) (profiles : List Profile)
    (entries : List (FallbackKey × Profile)) {state : σ} (holds : Holds state) :
    Holds (JsonParser.finalizeAll sink profiles state entries).1 := by
  induction entries generalizing state with
  | nil => exact holds
  | cons entry rest ih =>
      obtain ⟨key, fallback⟩ := entry
      have resolved := preserves.resolve profiles fallback holds
      cases key with
      | parsed profile => exact resolved
      | stored id =>
          simp only [JsonParser.finalizeAll]
          split
          · exact ih (preserves.setFallback id _ resolved)
          · exact preserves.setFallback id _ resolved

theorem parseJson (preserves : Preserves sink Holds) (runtime : Runtime) (feature : Option Profile)
    (json : Json) {state : σ} (holds : Holds state) :
    Holds (JsonParser.parseJson sink runtime feature json state).1 := by
  unfold JsonParser.parseJson
  split
  · exact holds
  · exact preserves.finalizeAll _ _ (preserves.createAll _ _ holds)

end Preserves

/-! ## Consecutive ids -/

def isStored : FallbackKey → Bool
  | .parsed _ => false
  | .stored _ => true

def storedFallbacks (fallbackMap : List (FallbackKey × Profile)) : List Profile :=
  (fallbackMap.filter (fun entry => isStored entry.1)).map Prod.snd

theorem storedFallbacks_of_ready {known : Int → Prop} {entries : List (FallbackKey × Profile)}
    (ready : ∀ entry ∈ entries, Ready known [] entry) :
    storedFallbacks entries = entries.map Prod.snd := by
  rw [storedFallbacks, List.filter_eq_self.mpr]
  intro entry member
  obtain ⟨_, ⟨_, impossible, _⟩ | ⟨id, same, _⟩⟩ := ready entry member
  · cases impossible
  · rw [same]
    rfl

/-- The fallbacks of some profiles, each taken by the first profile that it is filed under. -/
def keptFallbacks (given : Profile → Option Profile) : List Profile → List Profile
  | [] => []
  | profile :: rest =>
      (given profile).toList ++
        keptFallbacks (fun other => if other = profile then none else given other) rest

section

variable {σ : Type}

theorem nodup_createAll (sink : ProfileSink σ) (profiles : List Profile) (state : σ)
    {fallbackMap : List (FallbackKey × Profile)} (distinct : (LinkedMap.keys fallbackMap).Nodup) :
    (LinkedMap.keys (JsonParser.createAll sink fallbackMap state profiles).1).Nodup := by
  induction profiles generalizing fallbackMap state with
  | nil => exact distinct
  | cons profile rest ih =>
      simp only [JsonParser.createAll]
      cases LinkedMap.get (FallbackKey.parsed profile) fallbackMap with
      | none => exact ih _ (LinkedMap.nodup_remove distinct)
      | some fallback => exact ih _ (LinkedMap.nodup_put _ (LinkedMap.nodup_remove distinct))

def answers (sink : ProfileSink σ) : σ → List Profile → List Int
  | _, [] => []
  | state, profile :: rest =>
      (sink.create state profile).1 :: answers sink (sink.create state profile).2 rest

theorem length_answers (sink : ProfileSink σ) (state : σ) (profiles : List Profile) :
    (answers sink state profiles).length = profiles.length := by
  induction profiles generalizing state with
  | nil => rfl
  | cons profile rest ih => exact congrArg (· + 1) (ih _)

end

structure Numbers {σ : Type} (sink : ProfileSink σ) (last : σ → Int) : Prop where
  answer : ∀ state profile, (sink.create state profile).1 = last state + 1
  last : ∀ state profile, last (sink.create state profile).2 = last state + 1

namespace Numbers

variable {σ : Type} {sink : ProfileSink σ} {last : σ → Int}

def mapAfter (sink : ProfileSink σ) (fallbackMap : List (FallbackKey × Profile)) (state : σ)
    (profile : Profile) : List (FallbackKey × Profile) :=
  match LinkedMap.get (.parsed profile) fallbackMap with
  | none => LinkedMap.remove (.parsed profile) fallbackMap
  | some fallback =>
      LinkedMap.put (.stored (sink.create state profile).1) fallback
        (LinkedMap.remove (.parsed profile) fallbackMap)

theorem createAll_cons (fallbackMap : List (FallbackKey × Profile)) (state : σ)
    (profile : Profile) (rest : List Profile) :
    JsonParser.createAll sink fallbackMap state (profile :: rest) =
      JsonParser.createAll sink (mapAfter sink fallbackMap state profile)
        (sink.create state profile).2 rest := by
  rw [JsonParser.createAll, mapAfter]
  cases LinkedMap.get (FallbackKey.parsed profile) fallbackMap <;> rfl

variable {fallbackMap : List (FallbackKey × Profile)} {state : σ}

theorem get_parsed_mapAfter (profile other : Profile) :
    LinkedMap.get (.parsed other) (mapAfter sink fallbackMap state profile) =
      if other = profile then none else LinkedMap.get (.parsed other) fallbackMap := by
  have kept : LinkedMap.get (.parsed other) (mapAfter sink fallbackMap state profile) =
      LinkedMap.get (.parsed other) (LinkedMap.remove (.parsed profile) fallbackMap) := by
    rw [mapAfter]
    split
    · rfl
    · exact LinkedMap.get_put_other FallbackKey.noConfusion _ _
  rw [kept]
  split
  next same =>
    rw [same]
    exact LinkedMap.get_remove_self _ _
  next differs =>
    apply LinkedMap.get_remove_other
    exact fun same => differs (FallbackKey.parsed.inj same)

theorem get_stored_mapAfter {profile : Profile} {id : Int}
    (other : id ≠ (sink.create state profile).1) :
    LinkedMap.get (.stored id) (mapAfter sink fallbackMap state profile) =
      LinkedMap.get (.stored id) fallbackMap := by
  have kept : LinkedMap.get (.stored id) (LinkedMap.remove (.parsed profile) fallbackMap) =
      LinkedMap.get (.stored id) fallbackMap :=
    LinkedMap.get_remove_other FallbackKey.noConfusion _
  rw [mapAfter]
  split
  · exact kept
  · rw [LinkedMap.get_put_other (fun same => other (FallbackKey.stored.inj same))]
    exact kept

/-- The entry of a profile goes to the id it is stored under. -/
theorem get_answer_mapAfter {profile : Profile}
    (unused : LinkedMap.get (.stored (sink.create state profile).1) fallbackMap = none) :
    LinkedMap.get (.stored (sink.create state profile).1)
        (mapAfter sink fallbackMap state profile) =
      LinkedMap.get (.parsed profile) fallbackMap := by
  rw [mapAfter]
  cases LinkedMap.get (FallbackKey.parsed profile) fallbackMap with
  | none =>
      dsimp only
      rw [LinkedMap.get_remove_other FallbackKey.noConfusion]
      exact unused
  | some fallback => exact LinkedMap.get_put_self _ _ _

theorem stored_mapAfter {profile : Profile}
    (unused : LinkedMap.get (.stored (sink.create state profile).1) fallbackMap = none) :
    storedFallbacks (mapAfter sink fallbackMap state profile) =
      storedFallbacks fallbackMap ++ (LinkedMap.get (.parsed profile) fallbackMap).toList := by
  have kept : storedFallbacks (LinkedMap.remove (.parsed profile) fallbackMap) =
      storedFallbacks fallbackMap := by
    rw [storedFallbacks, storedFallbacks, LinkedMap.remove, List.filter_filter]
    congr 1
    apply List.filter_congr
    rintro ⟨key, fallback⟩ _
    cases key with
    | parsed other => rfl
    | stored id => simp [isStored]
  rw [mapAfter]
  split
  next absent => rw [kept, absent, Option.toList_none, List.append_nil]
  next fallback present =>
    rw [LinkedMap.put_of_not_mem, storedFallbacks, List.filter_append, List.map_append,
      ← storedFallbacks, kept, present]
    · rfl
    · rw [LinkedMap.mem_keys_remove, ← LinkedMap.get_isSome_iff, unused]
      simp

/-- Entries of other ids stay. -/
theorem get_of_not_mem_answers {profiles : List Profile} {id : Int}
    (other : id ∉ answers sink state profiles) :
    LinkedMap.get (.stored id) (JsonParser.createAll sink fallbackMap state profiles).1 =
      LinkedMap.get (.stored id) fallbackMap := by
  induction profiles generalizing fallbackMap state with
  | nil => rfl
  | cons profile rest ih =>
      obtain ⟨differs, later⟩ := not_or.mp (List.mem_cons.not.mp other)
      rw [createAll_cons, ih later, get_stored_mapAfter differs]

/-- Where the answers differ, the fallback of a profile goes to the first of several equal
ones. -/
theorem get_answer {profiles : List Profile} (distinct : (answers sink state profiles).Nodup)
    (unused : ∀ id ∈ answers sink state profiles,
      LinkedMap.get (.stored id) fallbackMap = none)
    {index : Nat} {profile : Profile} {id : Int} (listed : profiles[index]? = some profile)
    (answered : (answers sink state profiles)[index]? = some id) :
    LinkedMap.get (.stored id) (JsonParser.createAll sink fallbackMap state profiles).1 =
      if profile ∈ profiles.take index then none
      else LinkedMap.get (.parsed profile) fallbackMap := by
  induction profiles generalizing fallbackMap state index with
  | nil => cases listed
  | cons first rest ih =>
      obtain ⟨absent, distinctRest⟩ := List.nodup_cons.mp distinct
      rw [createAll_cons]
      cases index with
      | zero =>
          cases listed
          cases answered
          rw [get_of_not_mem_answers absent, get_answer_mapAfter (unused _ List.mem_cons_self),
            List.take_zero, if_neg List.not_mem_nil]
      | succ index =>
          have later : ∀ id ∈ answers sink (sink.create state first).2 rest,
              LinkedMap.get (.stored id) (mapAfter sink fallbackMap state first) = none := by
            intro id member
            rw [get_stored_mapAfter (fun same => absent (same ▸ member))]
            exact unused id (List.mem_cons_of_mem _ member)
          have found := ih distinctRest later listed answered
          rw [get_parsed_mapAfter] at found
          rw [found, List.take_succ_cons]
          by_cases seen : profile ∈ rest.take index
          · rw [if_pos seen, if_pos (List.mem_cons_of_mem _ seen)]
          · by_cases same : profile = first
            · rw [if_neg seen, if_pos same, if_pos (same ▸ List.mem_cons_self)]
            · have unseen : profile ∉ first :: rest.take index := by
                intro member
                exact (List.mem_cons.mp member).elim same seen
              rw [if_neg seen, if_neg same, if_neg unseen]

/-- The fallbacks of a document, in the order of the objects that keep them. -/
theorem stored_createAll {profiles : List Profile}
    (distinct : (answers sink state profiles).Nodup)
    (unused : ∀ id ∈ answers sink state profiles,
      LinkedMap.get (.stored id) fallbackMap = none) :
    storedFallbacks (JsonParser.createAll sink fallbackMap state profiles).1 =
      storedFallbacks fallbackMap ++
        keptFallbacks (fun profile => LinkedMap.get (.parsed profile) fallbackMap) profiles := by
  induction profiles generalizing fallbackMap state with
  | nil => exact (List.append_nil _).symm
  | cons first rest ih =>
      obtain ⟨absent, distinctRest⟩ := List.nodup_cons.mp distinct
      have later : ∀ id ∈ answers sink (sink.create state first).2 rest,
          LinkedMap.get (.stored id) (mapAfter sink fallbackMap state first) = none := by
        intro id member
        rw [get_stored_mapAfter (fun same => absent (same ▸ member))]
        exact unused id (List.mem_cons_of_mem _ member)
      have others : (fun profile =>
          LinkedMap.get (.parsed profile) (mapAfter sink fallbackMap state first)) =
          fun other => if other = first then none
            else LinkedMap.get (.parsed other) fallbackMap :=
        funext (get_parsed_mapAfter first)
      rw [createAll_cons, ih distinctRest later, others, keptFallbacks, ← List.append_assoc,
        stored_mapAfter (unused _ List.mem_cons_self)]

theorem lt_of_mem_answers (numbers : Numbers sink last) {profiles : List Profile} {id : Int}
    (member : id ∈ answers sink state profiles) : last state < id := by
  induction profiles generalizing state with
  | nil => cases member
  | cons profile rest ih =>
      have answer := numbers.answer state profile
      have next := numbers.last state profile
      rcases List.mem_cons.mp member with here | later
      · omega
      · have above := ih later
        omega

theorem nodup_answers (numbers : Numbers sink last) (profiles : List Profile) :
    (answers sink state profiles).Nodup := by
  induction profiles generalizing state with
  | nil => exact List.nodup_nil
  | cons profile rest ih =>
      refine List.nodup_cons.mpr ⟨fun member => ?_, ih⟩
      have answer := numbers.answer state profile
      have next := numbers.last state profile
      have above := numbers.lt_of_mem_answers member
      omega

theorem getElem?_answers (numbers : Numbers sink last) {profiles : List Profile} {index : Nat}
    (inside : index < profiles.length) :
    (answers sink state profiles)[index]? = some (last state + 1 + index) := by
  induction profiles generalizing state index with
  | nil => cases inside
  | cons profile rest ih =>
      have answer := numbers.answer state profile
      have next := numbers.last state profile
      cases index with
      | zero =>
          rw [answers, List.getElem?_cons_zero, answer]
          simp
      | succ index =>
          rw [answers, List.getElem?_cons_succ, ih (Nat.lt_of_succ_lt_succ inside), next]
          congr 1
          omega

/-- The fallback of a profile goes to the first of several equal ones. -/
theorem get_stored (numbers : Numbers sink last) {profiles : List Profile}
    (unused : ∀ id, last state < id → LinkedMap.get (.stored id) fallbackMap = none)
    {index : Nat} {profile : Profile} (listed : profiles[index]? = some profile) :
    LinkedMap.get (.stored (last state + 1 + index))
        (JsonParser.createAll sink fallbackMap state profiles).1 =
      if profile ∈ profiles.take index then none
      else LinkedMap.get (.parsed profile) fallbackMap :=
  get_answer (numbers.nodup_answers profiles)
    (fun id member => unused id (numbers.lt_of_mem_answers member)) listed
    (numbers.getElem?_answers (List.getElem?_eq_some_iff.mp listed).1)

end Numbers

/-! ## Two sinks side by side -/

/-- Sinks over related states that answer alike and resolve fallbacks alike. `Known`
ids are those the second callback has answered with. -/
structure Simulates {σ τ : Type} (first : ProfileSink σ) (second : ProfileSink τ)
    (Related : σ → τ → Prop) (Known : τ → Int → Prop) : Prop where
  create : ∀ {s t profile}, Fresh profile → Related s t →
    (first.create s profile).1 = (second.create t profile).1 ∧
      Related (first.create s profile).2 (second.create t profile).2 ∧
      Known (second.create t profile).2 (second.create t profile).1 ∧
      ∀ id, Known t id → Known (second.create t profile).2 id
  getAllProfiles : ∀ {s t}, Related s t → first.getAllProfiles s = second.getAllProfiles t
  setFallback : ∀ {s t id target}, Related s t → Known t id →
    (first.setFallback s id target).2 = (second.setFallback t id target).2 ∧
      Related (first.setFallback s id target).1 (second.setFallback t id target).1 ∧
      ∀ other, Known t other → Known (second.setFallback t id target).1 other

namespace Simulates

variable {σ τ : Type} {first : ProfileSink σ} {second : ProfileSink τ}
  {Related : σ → τ → Prop} {Known : τ → Int → Prop}

theorem createAll (simulates : Simulates first second Related Known)
    (profiles : List Profile) (fresh : ∀ profile ∈ profiles, Fresh profile)
    {fallbackMap : List (FallbackKey × Profile)} {s : σ} {t : τ} (related : Related s t)
    (ready : ∀ entry ∈ fallbackMap, Ready (Known t) profiles entry) :
    (JsonParser.createAll first fallbackMap s profiles).1 =
        (JsonParser.createAll second fallbackMap t profiles).1 ∧
      Related (JsonParser.createAll first fallbackMap s profiles).2
        (JsonParser.createAll second fallbackMap t profiles).2 ∧
      ∀ entry ∈ (JsonParser.createAll second fallbackMap t profiles).1,
        Ready (Known (JsonParser.createAll second fallbackMap t profiles).2) [] entry := by
  induction profiles generalizing fallbackMap s t with
  | nil => exact ⟨rfl, related, ready⟩
  | cons profile rest ih =>
      have freshRest : ∀ other ∈ rest, Fresh other := fun other member =>
        fresh other (List.mem_cons_of_mem _ member)
      obtain ⟨same, next, answered, kept⟩ :=
        simulates.create (fresh profile List.mem_cons_self) related
      have remaining := ready_next ready kept
      simp only [JsonParser.createAll]
      cases found : LinkedMap.get (FallbackKey.parsed profile) fallbackMap with
      | none => exact ih freshRest next remaining
      | some fallback =>
          have freshFallback := (ready _ (LinkedMap.mem_of_get found)).1
          dsimp only
          rw [same]
          exact ih freshRest next (ready_put remaining freshFallback answered)

theorem resolve (simulates : Simulates first second Related Known) (profiles : List Profile)
    {fallback : Profile} (fresh : Fresh fallback) {s : σ} {t : τ} (related : Related s t) :
    (JsonParser.resolve first profiles s fallback).1 =
        (JsonParser.resolve second profiles t fallback).1 ∧
      Related (JsonParser.resolve first profiles s fallback).2
        (JsonParser.resolve second profiles t fallback).2 ∧
      ∀ other, Known t other →
        Known (JsonParser.resolve second profiles t fallback).2 other := by
  unfold JsonParser.resolve
  split
  · exact ⟨rfl, related, fun _ known => known⟩
  · obtain ⟨answer, next, _, kept⟩ := simulates.create fresh related
    exact ⟨answer, next, kept⟩

theorem finalizeAll (simulates : Simulates first second Related Known)
    (profiles : List Profile) (entries : List (FallbackKey × Profile)) {s : σ} {t : τ}
    (related : Related s t) (ready : ∀ entry ∈ entries, Ready (Known t) [] entry) :
    (JsonParser.finalizeAll first profiles s entries).2 =
        (JsonParser.finalizeAll second profiles t entries).2 ∧
      Related (JsonParser.finalizeAll first profiles s entries).1
        (JsonParser.finalizeAll second profiles t entries).1 := by
  induction entries generalizing s t with
  | nil => exact ⟨rfl, related⟩
  | cons entry rest ih =>
      obtain ⟨key, fallback⟩ := entry
      obtain ⟨fresh, ⟨_, impossible, _⟩ | ⟨id, sameKey, isKnown⟩⟩ :=
        ready (key, fallback) List.mem_cons_self
      · cases impossible
      cases sameKey
      obtain ⟨answer, next, kept⟩ := simulates.resolve profiles fresh related
      simp only [JsonParser.finalizeAll]
      rw [answer]
      obtain ⟨flag, updated, keptAgain⟩ := simulates.setFallback next (kept id isKnown)
      rw [flag]
      split
      · refine ih updated ?_
        intro entry member
        obtain ⟨freshEntry, ⟨_, impossible, _⟩ | ⟨other, otherKey, otherKnown⟩⟩ :=
          ready entry (List.mem_cons_of_mem _ member)
        · cases impossible
        · exact ⟨freshEntry, Or.inr ⟨other, otherKey, keptAgain other (kept other otherKnown)⟩⟩
      · exact ⟨flag, updated⟩

/-- Related states stay related through a document. -/
theorem parseJson (simulates : Simulates first second Related Known)
    (runtime : Runtime) (feature : Option Profile) (json : Json) {s : σ} {t : τ}
    (related : Related s t) :
    (JsonParser.parseJson first runtime feature json s).2 =
        (JsonParser.parseJson second runtime feature json t).2 ∧
      Related (JsonParser.parseJson first runtime feature json s).1
        (JsonParser.parseJson second runtime feature json t).1 := by
  unfold JsonParser.parseJson
  cases processed : process runtime feature {} json with
  | error message => exact ⟨rfl, related⟩
  | ok parser =>
      have wellFormed := wellFormed_document processed
      obtain ⟨sameMap, created, ready⟩ := simulates.createAll parser.profiles wellFormed.profiles
        related (wellFormed.ready (Known t))
      dsimp only [JsonParser.finalize]
      rw [sameMap, simulates.getAllProfiles created]
      exact simulates.finalizeAll _ _ created ready

end Simulates

/-! ## Two sinks until they part -/

/-- Sinks that answer and resolve alike from the `Same` states on, or end up `Parted`,
which neither of them undoes. -/
structure Accompanies {σ τ : Type} (first : ProfileSink σ) (second : ProfileSink τ)
    (Same Parted : σ → τ → Prop) : Prop where
  create : ∀ {s t} profile, Same s t →
    ((first.create s profile).1 = (second.create t profile).1 ∧
      Same (first.create s profile).2 (second.create t profile).2) ∨
    Parted (first.create s profile).2 (second.create t profile).2
  resolved : ∀ {s t} fallback, Same s t →
    ((first.getAllProfiles s).find? (Profile.fallbackMatches fallback)).map Profile.id =
      ((second.getAllProfiles t).find? fallback.fallbackMatches).map Profile.id
  setFallback : ∀ {s t} id target, Same s t →
    (first.setFallback s id target).2 = (second.setFallback t id target).2 ∧
      Same (first.setFallback s id target).1 (second.setFallback t id target).1
  partedFirst : ∀ t, Preserves first (fun s => Parted s t)
  partedSecond : ∀ s, Preserves second (Parted s)

namespace Accompanies

variable {σ τ : Type} {first : ProfileSink σ} {second : ProfileSink τ}
  {Same Parted : σ → τ → Prop}

theorem createAll (accompanies : Accompanies first second Same Parted)
    (profiles : List Profile) (fallbackMap : List (FallbackKey × Profile)) {s : σ} {t : τ}
    (same : Same s t) :
    ((JsonParser.createAll first fallbackMap s profiles).1 =
        (JsonParser.createAll second fallbackMap t profiles).1 ∧
      Same (JsonParser.createAll first fallbackMap s profiles).2
        (JsonParser.createAll second fallbackMap t profiles).2) ∨
    Parted (JsonParser.createAll first fallbackMap s profiles).2
      (JsonParser.createAll second fallbackMap t profiles).2 := by
  induction profiles generalizing fallbackMap s t with
  | nil => exact Or.inl ⟨rfl, same⟩
  | cons profile rest ih =>
      simp only [JsonParser.createAll]
      rcases accompanies.create profile same with ⟨answer, next⟩ | parted
      · rw [answer]
        cases LinkedMap.get (FallbackKey.parsed profile) fallbackMap with
        | none => exact ih _ next
        | some fallback => exact ih _ next
      · right
        cases LinkedMap.get (FallbackKey.parsed profile) fallbackMap with
        | none =>
            exact (accompanies.partedSecond _).createAll rest _
              ((accompanies.partedFirst _).createAll rest _ parted)
        | some fallback =>
            exact (accompanies.partedSecond _).createAll rest _
              ((accompanies.partedFirst _).createAll rest _ parted)

theorem resolve (accompanies : Accompanies first second Same Parted)
    {listing listing' : List Profile} {fallback : Profile}
    (alike : (listing.find? fallback.fallbackMatches).map Profile.id =
      (listing'.find? fallback.fallbackMatches).map Profile.id) {s : σ} {t : τ}
    (same : Same s t) :
    ((JsonParser.resolve first listing s fallback).1 =
        (JsonParser.resolve second listing' t fallback).1 ∧
      Same (JsonParser.resolve first listing s fallback).2
        (JsonParser.resolve second listing' t fallback).2) ∨
    Parted (JsonParser.resolve first listing s fallback).2
      (JsonParser.resolve second listing' t fallback).2 := by
  unfold JsonParser.resolve
  cases found : listing.find? fallback.fallbackMatches with
  | some row =>
      rw [found, Option.map_some, eq_comm, Option.map_eq_some_iff] at alike
      obtain ⟨row', found', sameId⟩ := alike
      rw [found']
      exact Or.inl ⟨sameId.symm, same⟩
  | none =>
      rw [found, Option.map_none, eq_comm, Option.map_eq_none_iff] at alike
      rw [alike]
      exact accompanies.create fallback same

theorem finalizeAll (accompanies : Accompanies first second Same Parted)
    {listing listing' : List Profile}
    (alike : ∀ fallback : Profile, (listing.find? fallback.fallbackMatches).map Profile.id =
      (listing'.find? fallback.fallbackMatches).map Profile.id)
    (entries : List (FallbackKey × Profile)) {s : σ} {t : τ} (same : Same s t) :
    Same (JsonParser.finalizeAll first listing s entries).1
        (JsonParser.finalizeAll second listing' t entries).1 ∨
      Parted (JsonParser.finalizeAll first listing s entries).1
        (JsonParser.finalizeAll second listing' t entries).1 := by
  induction entries generalizing s t with
  | nil => exact Or.inl same
  | cons entry rest ih =>
      obtain ⟨key, fallback⟩ := entry
      rcases accompanies.resolve (alike fallback) same with ⟨answer, next⟩ | parted
      · cases key with
        | parsed profile => exact Or.inl next
        | stored id =>
            simp only [JsonParser.finalizeAll]
            rw [answer]
            obtain ⟨flag, updated⟩ := accompanies.setFallback id
              (JsonParser.resolve second listing' t fallback).1 next
            rw [flag]
            split
            · exact ih updated
            · exact Or.inl updated
      · -- Each side goes on alone: what is left of the loop is a loop of its own.
        right
        cases key with
        | parsed profile => exact parted
        | stored id =>
            have alone := (accompanies.partedFirst _).setFallback id
              (JsonParser.resolve first listing s fallback).1 parted
            have both := (accompanies.partedSecond _).setFallback id
              (JsonParser.resolve second listing' t fallback).1 alone
            simp only [JsonParser.finalizeAll]
            split <;> split
            · exact (accompanies.partedSecond _).finalizeAll listing' rest
                ((accompanies.partedFirst _).finalizeAll listing rest both)
            · exact (accompanies.partedFirst _).finalizeAll listing rest both
            · exact (accompanies.partedSecond _).finalizeAll listing' rest both
            · exact both

/-- A document is read alike, or the states part. -/
theorem parseJson (accompanies : Accompanies first second Same Parted)
    (runtime : Runtime) (feature : Option Profile) (json : Json) {s : σ} {t : τ}
    (start : Same s t ∨ Parted s t) :
    Same (JsonParser.parseJson first runtime feature json s).1
        (JsonParser.parseJson second runtime feature json t).1 ∨
      Parted (JsonParser.parseJson first runtime feature json s).1
        (JsonParser.parseJson second runtime feature json t).1 := by
  rcases start with same | parted
  · unfold JsonParser.parseJson
    cases process runtime feature {} json with
    | error message => exact Or.inl same
    | ok parser =>
        dsimp only [JsonParser.finalize]
        rcases accompanies.createAll parser.profiles parser.fallbackMap same with
          ⟨sameMap, created⟩ | parted
        · rw [sameMap]
          exact accompanies.finalizeAll (fun fallback => accompanies.resolved fallback created)
            _ created
        · exact Or.inr ((accompanies.partedSecond _).finalizeAll _ _
            ((accompanies.partedFirst _).finalizeAll _ _ parted))
  · exact Or.inr ((accompanies.partedSecond _).parseJson runtime feature json
      ((accompanies.partedFirst _).parseJson runtime feature json parted))

end Accompanies

end AlienConnection.Database.JsonParser
