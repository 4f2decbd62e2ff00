import AlienConnection.Database.JsonParser
import AlienConnection.Library.Machine

/-!
# Handing parsed profiles to their caller

`parseJson` passes every profile of a document to a callback that stores it
somehow, and then resolves the UDP fallbacks against the stored profiles. What
it needs from its surroundings is a sink: the callback, the list of stored
profiles and the update of one of them.
-/

namespace AlienConnection.Database

open Library

/-- The fallback of a document is the first stored profile with the same server
and without a plugin. -/
def Profile.fallbackMatches (fallback row : Profile) : Bool :=
  decide (fallback.host = row.host ∧ fallback.remotePort = row.remotePort ∧
    fallback.password = row.password ∧ fallback.method = row.method) &&
    (row.plugin.getD "").isEmpty

/-- The state a caller of `parseJson` works on. `create` returns the id of the
profile object it answers with; `setFallback` assigns `udpFallback` of the object
with the first id and stores it, with whether the check succeeded. -/
structure ProfileSink (σ : Type) where
  create : σ → Profile → Int × σ
  getAllProfiles : σ → List Profile
  setFallback : σ → Int → Int → σ × Bool

namespace JsonParser

section

variable {σ : Type} (sink : ProfileSink σ)

/-- The loop over the parsed profiles. A fallback moves from the parsed profile to
the object that stands for it. -/
def createAll (fallbackMap : List (FallbackKey × Profile)) (state : σ) :
    List Profile → List (FallbackKey × Profile) × σ
  | [] => (fallbackMap, state)
  | profile :: rest =>
      let created := sink.create state profile
      let remaining := LinkedMap.remove (.parsed profile) fallbackMap
      match LinkedMap.get (.parsed profile) fallbackMap with
      | none => createAll remaining created.2 rest
      | some fallback =>
          createAll (LinkedMap.put (.stored created.1) fallback remaining) created.2 rest

def resolve (profiles : List Profile) (state : σ) (fallback : Profile) : Int × σ :=
  match profiles.find? fallback.fallbackMatches with
  | some row => (row.id, state)
  | none => sink.create state fallback

/-- The loop of `finalize`. The check fails for a profile that was never stored,
and the exception leaves the loop. -/
def finalizeAll (profiles : List Profile) (state : σ) :
    List (FallbackKey × Profile) → σ × Bool
  | [] => (state, true)
  | (key, fallback) :: rest =>
      let resolved := resolve sink profiles state fallback
      match key with
      | .parsed _ => (resolved.2, false)
      | .stored id =>
          let updated := sink.setFallback resolved.2 id resolved.1
          if updated.2 then finalizeAll profiles updated.1 rest else updated

/-- `finalize`. The stored profiles are listed once, before the loop. -/
def finalize (fallbackMap : List (FallbackKey × Profile)) (state : σ) : σ × Bool :=
  finalizeAll sink (sink.getAllProfiles state) state fallbackMap

/-- `Profile.parseJson`, with whether it returned normally. -/
def parseJson (runtime : Runtime) (feature : Option Profile) (json : Json) (state : σ) :
    σ × Bool :=
  match process runtime feature {} json with
  | .error _ => (state, false)
  | .ok parser =>
      let created := createAll sink parser.fallbackMap state parser.profiles
      finalize sink created.1 created.2

end

/-! ## What a document hands over -/

def Fresh (profile : Profile) : Prop := profile.id = 0 ∧ profile.udpFallback = none

structure WellFormed (parser : JsonParser) : Prop where
  profiles : ∀ profile ∈ parser.profiles, Fresh profile
  fallbacks : ∀ entry ∈ parser.fallbackMap,
    Fresh entry.2 ∧ ∃ profile ∈ parser.profiles, entry.1 = .parsed profile

theorem fresh_parseServer {runtime : Runtime} {json : List (String × Json)}
    {profile : Profile} (parsed : parseServer runtime json = some profile) : Fresh profile := by
  simp only [parseServer, Option.bind_eq_bind, Option.bind_eq_some_iff] at parsed
  obtain ⟨host, _, port, _, rest⟩ := parsed
  split at rest
  · cases rest
  · simp only [Option.bind_eq_some_iff] at rest
    obtain ⟨password, _, method, _, made⟩ := rest
    cases made
    exact ⟨rfl, rfl⟩

theorem fresh_tryParseFallback {runtime : Runtime} {feature : Option Profile}
    {json : List (String × Json)} {profile : Profile}
    (parsed : tryParseFallback runtime feature json = .ok (some profile)) : Fresh profile := by
  simp only [tryParseFallback] at parsed
  split at parsed
  · cases parsed
  next server found =>
    have fresh := fresh_parseServer found
    split at parsed
    · cases parsed
    · cases parsed
      cases feature with
      | none => exact ⟨fresh.1, fresh.2⟩
      | some feature => exact ⟨fresh.1, fresh.2⟩

theorem fresh_parseSettings (json : List (String × Json)) {profile : Profile}
    (fresh : Fresh profile) : Fresh (parseSettings json profile) := by
  simp only [parseSettings]
  split
  · exact fresh
  · exact fresh

theorem fresh_tryParse {runtime : Runtime} {feature : Option Profile}
    {json : List (String × Json)} {profile : Profile} {fallback : Option Profile}
    (parsed : tryParse runtime feature json = .ok (some (profile, fallback))) :
    Fresh profile ∧ ∀ other ∈ fallback, Fresh other := by
  simp only [tryParse] at parsed
  split at parsed
  · cases parsed
  · cases parsed
  next server found =>
    have fresh := fresh_parseSettings json (fresh_tryParseFallback found)
    split at parsed
    · cases parsed
      exact ⟨fresh, fun _ member => by cases member⟩
    next inner _ =>
      split at parsed
      · cases parsed
      next other found =>
        cases parsed
        refine ⟨fresh, ?_⟩
        intro profile member
        rw [Option.mem_def.mp member] at found
        exact fresh_tryParseFallback found

theorem WellFormed.add {parser : JsonParser} (wellFormed : WellFormed parser)
    {profile : Profile} {fallback : Option Profile} (fresh : Fresh profile)
    (freshFallback : ∀ other ∈ fallback, Fresh other) :
    WellFormed (parser.add profile fallback) where
  profiles := by
    intro other member
    rcases List.mem_append.mp member with before | here
    · exact wellFormed.profiles other before
    · rw [List.mem_singleton.mp here]
      exact fresh
  fallbacks := by
    have earlier : ∀ entry ∈ parser.fallbackMap,
        Fresh entry.2 ∧ ∃ other ∈ parser.profiles ++ [profile], entry.1 = .parsed other := by
      intro entry member
      obtain ⟨freshEntry, other, listed, same⟩ := wellFormed.fallbacks entry member
      exact ⟨freshEntry, other, List.mem_append_left _ listed, same⟩
    cases fallback with
    | none => exact earlier
    | some fallback =>
        intro entry member
        rcases LinkedMap.mem_put member with before | ⟨same, value⟩
        · exact earlier entry before
        · rw [value, same]
          exact ⟨freshFallback fallback rfl, profile,
            List.mem_append_right _ List.mem_cons_self, rfl⟩

mutual

theorem wellFormed_process (runtime : Runtime) (feature : Option Profile) (json : Json)
    {parser result : JsonParser} (wellFormed : WellFormed parser)
    (processed : process runtime feature parser json = .ok result) : WellFormed result := by
  cases json with
  | object members =>
      simp only [process] at processed
      split at processed
      · cases processed
      next profile fallback parsed =>
        cases processed
        obtain ⟨fresh, freshFallback⟩ := fresh_tryParse parsed
        exact wellFormed.add fresh freshFallback
      · exact wellFormed_processMembers runtime feature members wellFormed processed
  | array items =>
      simp only [process] at processed
      exact wellFormed_processItems runtime feature items wellFormed processed
  | null =>
      cases processed
      exact wellFormed
  | bool value =>
      cases processed
      exact wellFormed
  | string text =>
      cases processed
      exact wellFormed
  | number text intValue =>
      cases processed
      exact wellFormed

theorem wellFormed_processMembers (runtime : Runtime) (feature : Option Profile)
    (members : List (String × Json)) {parser result : JsonParser}
    (wellFormed : WellFormed parser)
    (processed : processMembers runtime feature parser members = .ok result) :
    WellFormed result := by
  match members with
  | [] =>
      cases processed
      exact wellFormed
  | (name, value) :: rest =>
      simp only [processMembers] at processed
      split at processed
      · cases processed
      next next done =>
        exact wellFormed_processMembers runtime feature rest
          (wellFormed_process runtime feature value wellFormed done) processed

theorem wellFormed_processItems (runtime : Runtime) (feature : Option Profile)
    (items : List Json) {parser result : JsonParser} (wellFormed : WellFormed parser)
    (processed : processItems runtime feature parser items = .ok result) :
    WellFormed result := by
  match items with
  | [] =>
      cases processed
      exact wellFormed
  | item :: rest =>
      simp only [processItems] at processed
      split at processed
      · cases processed
      next next done =>
        exact wellFormed_processItems runtime feature rest
          (wellFormed_process runtime feature item wellFormed done) processed

end

/-- Adding a profile adds at most its own fallback. -/
theorem mem_fallbacks_add {parser : JsonParser} {profile : Profile} {found : Option Profile}
    {fallback : Profile}
    (member : fallback ∈ (parser.add profile found).fallbackMap.map Prod.snd) :
    fallback ∈ parser.fallbackMap.map Prod.snd ∨ fallback ∈ found.toList := by
  cases found with
  | none => exact Or.inl member
  | some other =>
      obtain ⟨entry, inside, same⟩ := List.mem_map.mp member
      rcases LinkedMap.mem_put inside with before | ⟨_, value⟩
      · exact Or.inl (List.mem_map.mpr ⟨entry, before, same⟩)
      · exact Or.inr (by rw [← same, value]; exact List.mem_singleton_self other)

/-- The parser of a whole document. -/
theorem wellFormed_document {runtime : Runtime} {feature : Option Profile} {json : Json}
    {parser : JsonParser} (processed : process runtime feature {} json = .ok parser) :
    WellFormed parser :=
  wellFormed_process runtime feature json
    ⟨fun _ member => absurd member List.not_mem_nil,
      fun _ member => absurd member List.not_mem_nil⟩ processed

end JsonParser

end AlienConnection.Database
