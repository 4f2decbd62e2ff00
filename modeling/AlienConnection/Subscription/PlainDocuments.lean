import AlienConnection.Subscription.Merge

/-!
# Documents without fallbacks

What a document offers does not depend on the current profile, whose settings go
into new profiles only. Without `udp_fallback` objects it does not depend on the
table either: the profile objects are offered and no links are set.
-/

namespace AlienConnection.Subscription

open Database Library JsonParser

/-! ## The current profile does not matter -/

def Alike {α β : Type} (Same : α → β → Prop) (first : Except String α)
    (second : Except String β) : Prop :=
  (∃ message, first = .error message ∧ second = .error message) ∨
    ∃ one other, first = .ok one ∧ second = .ok other ∧ Same one other

def offersOf (answer : Option (Profile × Option Profile)) : Option (Offer × Option Offer) :=
  answer.map (fun found => (offerOf found.1, found.2.map offerOf))

theorem offerOf_parseSettings (json : List (String × Json)) (profile : Profile) :
    offerOf (parseSettings json profile) = offerOf profile := by
  unfold parseSettings
  dsimp only
  split <;> rfl

section

variable (runtime : Runtime) (one other : Option Profile)

theorem alike_tryParseFallback (json : List (String × Json)) :
    Alike (fun first second => first.map offerOf = second.map offerOf)
      (tryParseFallback runtime one json) (tryParseFallback runtime other json) := by
  unfold tryParseFallback
  cases parseServer runtime json with
  | none => exact Or.inr ⟨none, none, rfl, rfl, rfl⟩
  | some server =>
      cases parsePlugin runtime json with
      | error message => exact Or.inl ⟨message, rfl, rfl⟩
      | ok plugin => exact Or.inr ⟨_, _, rfl, rfl, by cases one <;> cases other <;> rfl⟩

theorem alike_tryParse (json : List (String × Json)) :
    Alike (fun first second => offersOf first = offersOf second)
      (tryParse runtime one json) (tryParse runtime other json) := by
  unfold tryParse
  rcases alike_tryParseFallback runtime one other json with
    ⟨message, first, second⟩ | ⟨server, server', first, second, same⟩
  · rw [first, second]
    exact Or.inl ⟨message, rfl, rfl⟩
  · rw [first, second]
    cases server with
    | none =>
        cases server' with
        | none => exact Or.inr ⟨none, none, rfl, rfl, rfl⟩
        | some _ => cases same
    | some server =>
        cases server' with
        | none => cases same
        | some server' =>
            have sameProfile : offerOf (parseSettings json server) =
                offerOf (parseSettings json server') := by
              rw [offerOf_parseSettings, offerOf_parseSettings]
              exact Option.some.inj same
            dsimp only
            cases Json.optObject (LinkedMap.get "udp_fallback" json) with
            | none =>
                refine Or.inr ⟨_, _, rfl, rfl, ?_⟩
                simp [offersOf, sameProfile]
            | some inner =>
                dsimp only
                rcases alike_tryParseFallback runtime one other inner with
                  ⟨message, first, second⟩ | ⟨fallback, fallback', first, second, sameFallback⟩
                · rw [first, second]
                  exact Or.inl ⟨message, rfl, rfl⟩
                · rw [first, second]
                  refine Or.inr ⟨_, _, rfl, rfl, ?_⟩
                  simp [offersOf, sameProfile, sameFallback]

end

section

variable {runtime : Runtime} {one other : Option Profile}

mutual

theorem alike_process (json : Json) {parser parser' : JsonParser}
    (same : parser.profiles.map offerOf = parser'.profiles.map offerOf) :
    Alike (fun first second : JsonParser =>
        first.profiles.map offerOf = second.profiles.map offerOf)
      (process runtime one parser json) (process runtime other parser' json) := by
  cases json with
  | object members =>
      simp only [process]
      rcases alike_tryParse runtime one other members with
        ⟨message, first, second⟩ | ⟨answer, answer', first, second, sameAnswer⟩
      · rw [first, second]
        exact Or.inl ⟨message, rfl, rfl⟩
      · rw [first, second]
        cases answer with
        | none =>
            cases answer' with
            | none => exact alike_processMembers members same
            | some _ => cases sameAnswer
        | some found =>
            cases answer' with
            | none => cases sameAnswer
            | some found' =>
                refine Or.inr ⟨_, _, rfl, rfl, ?_⟩
                have sameOffer := congrArg Prod.fst (Option.some.inj sameAnswer)
                simpa [add, same] using sameOffer
  | array items =>
      rw [process, process]
      exact alike_processItems items same
  | null => exact Or.inr ⟨parser, parser', rfl, rfl, same⟩
  | bool value => exact Or.inr ⟨parser, parser', rfl, rfl, same⟩
  | string text => exact Or.inr ⟨parser, parser', rfl, rfl, same⟩
  | number text intValue => exact Or.inr ⟨parser, parser', rfl, rfl, same⟩

theorem alike_processMembers (members : List (String × Json)) {parser parser' : JsonParser}
    (same : parser.profiles.map offerOf = parser'.profiles.map offerOf) :
    Alike (fun first second : JsonParser =>
        first.profiles.map offerOf = second.profiles.map offerOf)
      (processMembers runtime one parser members)
      (processMembers runtime other parser' members) := by
  match members with
  | [] => exact Or.inr ⟨parser, parser', rfl, rfl, same⟩
  | (name, value) :: rest =>
      simp only [processMembers]
      rcases alike_process value same with
        ⟨message, first, second⟩ | ⟨next, next', first, second, sameNext⟩
      · rw [first, second]
        exact Or.inl ⟨message, rfl, rfl⟩
      · rw [first, second]
        exact alike_processMembers rest sameNext

theorem alike_processItems (items : List Json) {parser parser' : JsonParser}
    (same : parser.profiles.map offerOf = parser'.profiles.map offerOf) :
    Alike (fun first second : JsonParser =>
        first.profiles.map offerOf = second.profiles.map offerOf)
      (processItems runtime one parser items) (processItems runtime other parser' items) := by
  match items with
  | [] => exact Or.inr ⟨parser, parser', rfl, rfl, same⟩
  | item :: rest =>
      simp only [processItems]
      rcases alike_process item same with
        ⟨message, first, second⟩ | ⟨next, next', first, second, sameNext⟩
      · rw [first, second]
        exact Or.inl ⟨message, rfl, rfl⟩
      · rw [first, second]
        exact alike_processItems rest sameNext

end

mutual

theorem offers_fallbackObjects (json : Json) :
    (fallbackObjects runtime one json).map offerOf =
      (fallbackObjects runtime other json).map offerOf := by
  cases json with
  | object members =>
      simp only [fallbackObjects]
      rcases alike_tryParse runtime one other members with
        ⟨message, first, second⟩ | ⟨answer, answer', first, second, sameAnswer⟩
      · rw [first, second]
      · rw [first, second]
        cases answer with
        | none =>
            cases answer' with
            | none => exact offers_fallbackObjectsOfMembers members
            | some _ => cases sameAnswer
        | some found =>
            cases answer' with
            | none => cases sameAnswer
            | some found' =>
                have sameFallback := congrArg Prod.snd (Option.some.inj sameAnswer)
                simpa [← Option.toList_map] using congrArg Option.toList sameFallback
  | array items =>
      rw [fallbackObjects, fallbackObjects]
      exact offers_fallbackObjectsOfItems items
  | null => rfl
  | bool value => rfl
  | string text => rfl
  | number text intValue => rfl

theorem offers_fallbackObjectsOfMembers (members : List (String × Json)) :
    (fallbackObjectsOfMembers runtime one members).map offerOf =
      (fallbackObjectsOfMembers runtime other members).map offerOf := by
  match members with
  | [] => rfl
  | (name, value) :: rest =>
      rw [fallbackObjectsOfMembers, fallbackObjectsOfMembers, List.map_append, List.map_append,
        offers_fallbackObjects value, offers_fallbackObjectsOfMembers rest]

theorem offers_fallbackObjectsOfItems (items : List Json) :
    (fallbackObjectsOfItems runtime one items).map offerOf =
      (fallbackObjectsOfItems runtime other items).map offerOf := by
  match items with
  | [] => rfl
  | item :: rest =>
      rw [fallbackObjectsOfItems, fallbackObjectsOfItems, List.map_append, List.map_append,
        offers_fallbackObjects item, offers_fallbackObjectsOfItems rest]

end

theorem offers_profilesOf (json : Option Json) :
    (profilesOf runtime one json).map offerOf = (profilesOf runtime other json).map offerOf := by
  cases json with
  | none => rfl
  | some json =>
      have alike : Alike (fun first second : JsonParser =>
          first.profiles.map offerOf = second.profiles.map offerOf)
          (process runtime one {} json) (process runtime other {} json) :=
        alike_process json rfl
      unfold profilesOf
      dsimp only
      rcases alike with
        ⟨message, first, second⟩ | ⟨parser, parser', first, second, sameOffers⟩
      · rw [first, second]
      · rw [first, second]
        exact sameOffers

theorem fallbacksOf_eq_nil {json : Option Json} (plain : fallbacksOf runtime one json = []) :
    fallbacksOf runtime other json = [] := by
  cases json with
  | none => rfl
  | some json =>
      have same : (fallbackObjects runtime one json).map offerOf =
        (fallbackObjects runtime other json).map offerOf := offers_fallbackObjects json
      have none : fallbackObjects runtime one json = [] := plain
      rw [none, List.map_nil, eq_comm, List.map_eq_nil_iff] at same
      exact same

end

/-! ## The log of plain documents -/

/-- Without fallbacks the loop over the profiles does nothing but offer them. -/
theorem createAll_nil {σ : Type} (sink : ProfileSink σ) (state : σ) (profiles : List Profile) :
    createAll sink [] state profiles =
      ([], profiles.foldl (fun state profile => (sink.create state profile).2) state) := by
  induction profiles generalizing state with
  | nil => rfl
  | cons profile rest ih => exact ih (sink.create state profile).2

namespace Log

variable {base : ProfileTable} {runtime : Runtime} {feature : Option Profile}

theorem links_offer (log : Log) (it : Profile) : (log.offer base it).2.links = log.links := by
  rcases offer_cases base log it with ⟨_, _, result⟩ | ⟨_, _, _, result⟩ | ⟨_, _, result⟩
  · rw [result]
  · rw [result]
  · rw [result]

theorem links_offerAll (profiles : List Profile) (log : Log) :
    (profiles.foldl (fun state profile => ((sink base).create state profile).2) log).links =
      log.links := by
  induction profiles generalizing log with
  | nil => rfl
  | cons profile rest ih =>
      rw [List.foldl_cons, ih]
      exact links_offer log profile

theorem links_absorb {json : Option Json} (plain : fallbacksOf runtime feature json = [])
    (log : Log) : (log.absorb base runtime feature json).links = log.links := by
  cases json with
  | none => rfl
  | some json =>
      rw [absorb, parseJson]
      cases processed : process runtime feature {} json with
      | error message => rfl
      | ok parser =>
          have noFallbacks : parser.fallbackMap = [] := by
            rw [← List.map_eq_nil_iff (f := Prod.snd), List.eq_nil_iff_forall_not_mem]
            intro fallback member
            rcases mem_fallbacks_process json processed member with none | inside
            · cases none
            · have none : fallbackObjects runtime feature json = [] := plain
              rw [none] at inside
              cases inside
          dsimp only
          rw [noFallbacks, createAll_nil]
          exact links_offerAll parser.profiles log

/-- Plain documents offer their profile objects and set no links. -/
theorem run_plain (base : ProfileTable) {jsons : List (Option Json)}
    (plain : ∀ json ∈ jsons, fallbacksOf runtime feature json = []) :
    (run base runtime feature jsons).offered = jsons.flatMap (profilesOf runtime feature) ∧
      (run base runtime feature jsons).links = [] := by
  have generalised : ∀ log : Log, log.Sound base →
      (jsons.foldl (absorb base runtime feature) log).offered =
          log.offered ++ jsons.flatMap (profilesOf runtime feature) ∧
        (jsons.foldl (absorb base runtime feature) log).links = log.links := by
    induction jsons with
    | nil => simp
    | cons json rest ih =>
        intro log sound
        have here := plain json List.mem_cons_self
        obtain ⟨extra, offered, drawn, next⟩ := offered_absorb runtime feature json sound
        have noExtra : extra = [] := by
          rw [List.eq_nil_iff_forall_not_mem]
          intro profile member
          have inside := drawn profile member
          rw [here] at inside
          cases inside
        obtain ⟨restOffered, restLinks⟩ :=
          ih (fun other member => plain other (List.mem_cons_of_mem _ member)) _ next
        rw [List.foldl_cons, restOffered, restLinks, offered, noExtra, links_absorb here]
        simp
  obtain ⟨offered, links⟩ := generalised {} (sound_empty base)
  exact ⟨offered, links⟩

end Log

end AlienConnection.Subscription
