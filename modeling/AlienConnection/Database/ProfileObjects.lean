import AlienConnection.Database.ExportParsing
import AlienConnection.Database.SinkRules

/-!
# The profile objects of a document

An object with a server is a profile object, and it is not searched any further. So the
objects of a document can be listed before any of them is read, and what the parser makes of
the document is what it makes of the objects in this list, one after the other.
-/

namespace AlienConnection.Database.JsonParser

open Library

section

variable (runtime : Runtime)

mutual

/-- The objects that describe a server, outside of one another. -/
def profileObjects : Json → List (List (String × Json))
  | .object members =>
      if (parseServer runtime members).isSome then [members]
      else profileObjectsOfMembers members
  | .array items => profileObjectsOfItems items
  | _ => []

def profileObjectsOfMembers : List (String × Json) → List (List (String × Json))
  | [] => []
  | (_, value) :: rest => profileObjects value ++ profileObjectsOfMembers rest

def profileObjectsOfItems : List Json → List (List (String × Json))
  | [] => []
  | item :: rest => profileObjects item ++ profileObjectsOfItems rest

end

variable (feature : Option Profile)

/-- A profile object with its fallback. The failure is that of a plugin. -/
def readObject (members : List (String × Json)) : Except String (Profile × Option Profile) :=
  match tryParse runtime feature members with
  | .error message => .error message
  | .ok none => .error "no profile"
  | .ok (some found) => .ok found

def described (json : Json) : Except String (List (Profile × Option Profile)) :=
  (profileObjects runtime json).mapM (readObject runtime feature)

end

/-! ## Reading an object -/

section

variable {runtime : Runtime} {feature : Option Profile} {members : List (String × Json)}

theorem tryParseFallback_of_none (absent : parseServer runtime members = none) :
    tryParseFallback runtime feature members = .ok none := by
  rw [tryParseFallback, absent]

theorem tryParse_of_none (absent : parseServer runtime members = none) :
    tryParse runtime feature members = .ok none := by
  rw [tryParse, tryParseFallback_of_none absent]

/-- An object with a server is a profile, unless its plugin fails. -/
theorem tryParse_of_some {server : Profile} (found : parseServer runtime members = some server) :
    (∃ message, tryParse runtime feature members = .error message) ∨
      ∃ pair, tryParse runtime feature members = .ok (some pair) := by
  have first : (∃ message, tryParseFallback runtime feature members = .error message) ∨
      ∃ profile, tryParseFallback runtime feature members = .ok (some profile) := by
    simp only [tryParseFallback, found]
    split
    next message _ => exact Or.inl ⟨message, rfl⟩
    next => exact Or.inr ⟨_, rfl⟩
  unfold tryParse
  rcases first with ⟨message, failed⟩ | ⟨profile, parsed⟩
  · rw [failed]
    exact Or.inl ⟨message, rfl⟩
  · rw [parsed]
    dsimp only
    split
    · exact Or.inr ⟨_, rfl⟩
    · split
      next message _ => exact Or.inl ⟨message, rfl⟩
      next => exact Or.inr ⟨_, rfl⟩

theorem readObject_eq_ok_iff {found : Profile × Option Profile} :
    readObject runtime feature members = .ok found ↔
      tryParse runtime feature members = .ok (some found) := by
  unfold readObject
  constructor
  · intro read
    split at read
    · cases read
    · cases read
    next parsed =>
      cases read
      exact parsed
  · intro parsed
    rw [parsed]

/-! ## Reading a document -/

theorem collect_append (first second : List (Profile × Option Profile)) (parser : JsonParser) :
    collect (first ++ second) parser = collect second (collect first parser) :=
  List.foldl_append

/-- What is collected from two lists of objects. -/
theorem collect_mapM_append (parser : JsonParser)
    (first second : List (List (String × Json))) :
    ((first ++ second).mapM (readObject runtime feature)).map (fun found => collect found parser) =
      match (first.mapM (readObject runtime feature)).map (fun found => collect found parser) with
      | .error message => .error message
      | .ok next =>
          (second.mapM (readObject runtime feature)).map (fun found => collect found next) := by
  rw [List.mapM_append]
  cases first.mapM (readObject runtime feature) with
  | error message => rfl
  | ok found =>
      cases second.mapM (readObject runtime feature) with
      | error message => rfl
      | ok more => exact congrArg Except.ok (collect_append found more parser)

variable (runtime feature)

mutual

/-- The parser reads the profile objects of a tree one after the other. -/
theorem process_eq (parser : JsonParser) (json : Json) :
    process runtime feature parser json =
      (described runtime feature json).map (fun found => collect found parser) := by
  cases json with
  | object members =>
      rw [process, described, profileObjects]
      cases server : parseServer runtime members with
      | none =>
          rw [tryParse_of_none server]
          exact processMembers_eq parser members
      | some profile =>
          dsimp only [Option.isSome_some, if_true]
          rw [if_pos rfl, List.mapM_cons, List.mapM_nil, readObject]
          rcases @tryParse_of_some runtime feature members profile server with
            ⟨message, failed⟩ | ⟨pair, parsed⟩
          · rw [failed]
            rfl
          · rw [parsed]
            rfl
  | array items =>
      rw [process]
      exact processItems_eq parser items
  | null => rfl
  | bool value => rfl
  | string text => rfl
  | number text intValue => rfl

theorem processMembers_eq (parser : JsonParser) (members : List (String × Json)) :
    processMembers runtime feature parser members =
      ((profileObjectsOfMembers runtime members).mapM (readObject runtime feature)).map
        (fun found => collect found parser) := by
  match members with
  | [] => rfl
  | (name, value) :: rest =>
      rw [processMembers, profileObjectsOfMembers, collect_mapM_append, process_eq parser value,
        described]
      cases (profileObjects runtime value).mapM (readObject runtime feature) with
      | error message => rfl
      | ok found => exact processMembers_eq (collect found parser) rest

theorem processItems_eq (parser : JsonParser) (items : List Json) :
    processItems runtime feature parser items =
      ((profileObjectsOfItems runtime items).mapM (readObject runtime feature)).map
        (fun found => collect found parser) := by
  match items with
  | [] => rfl
  | item :: rest =>
      rw [processItems, profileObjectsOfItems, collect_mapM_append, process_eq parser item,
        described]
      cases (profileObjects runtime item).mapM (readObject runtime feature) with
      | error message => rfl
      | ok found => exact processItems_eq (collect found parser) rest

end

variable {runtime feature} in
theorem process_of_described {json : Json} {found : List (Profile × Option Profile)}
    (describes : described runtime feature json = .ok found) :
    process runtime feature {} json = .ok (collect found {}) := by
  rw [process_eq, describes]
  rfl

variable {runtime feature} in
theorem wellFormed_of_described {json : Json} {found : List (Profile × Option Profile)}
    (describes : described runtime feature json = .ok found) : WellFormed (collect found {}) :=
  wellFormed_document (process_of_described describes)

variable {runtime feature} in
/-- The profiles that a document describes are stored one after the other, then their
fallbacks are resolved. -/
theorem parseJson_of_described {json : Json} {found : List (Profile × Option Profile)}
    (describes : described runtime feature json = .ok found) {σ : Type} (sink : ProfileSink σ)
    (state : σ) :
    parseJson sink runtime feature json state =
      let created := createAll sink (collect found {}).fallbackMap state (found.map Prod.fst)
      finalizeAll sink (sink.getAllProfiles created.2) created.2 created.1 := by
  have profiles : (collect found {}).profiles = found.map Prod.fst := profiles_collect
  rw [parseJson, process_of_described describes, ← profiles]
  rfl

end

/-! ## The fallbacks of a document -/

/-- The fallback that is filed under a profile: the one of the last object with its columns
that has one. -/
def lastFallback (found : List (Profile × Option Profile)) (profile : Profile) : Option Profile :=
  ((found.filter (fun object => decide (object.1 = profile))).filterMap Prod.snd).getLast?

theorem lastFallback_cons (object : Profile × Option Profile)
    (rest : List (Profile × Option Profile)) (profile : Profile) :
    lastFallback (object :: rest) profile =
      (lastFallback rest profile).or (if object.1 = profile then object.2 else none) := by
  obtain ⟨other, given⟩ := object
  unfold lastFallback
  by_cases same : other = profile
  · rw [List.filter_cons_of_pos (by simpa using same), if_pos same]
    cases given with
    | none => rw [List.filterMap_cons_none rfl, Option.or_none]
    | some given =>
        have first : Prod.snd (other, some given) = some given := rfl
        rw [List.filterMap_cons_some first, List.getLast?_cons]
        cases ((rest.filter (fun object => decide (object.1 = profile))).filterMap
          Prod.snd).getLast? <;> rfl
  · rw [List.filter_cons_of_neg (by simpa using same), if_neg same, Option.or_none]

theorem get_add (parser : JsonParser) (other profile : Profile) (given : Option Profile) :
    LinkedMap.get (.parsed profile) (parser.add other given).fallbackMap =
      (if other = profile then given else none).or
        (LinkedMap.get (.parsed profile) parser.fallbackMap) := by
  cases given with
  | none => rw [ite_self, Option.none_or, add]
  | some given =>
      by_cases same : other = profile
      · rw [if_pos same, Option.some_or, same]
        exact LinkedMap.get_put_self _ _ _
      · rw [if_neg same, Option.none_or]
        apply LinkedMap.get_put_other
        exact fun equal => same (FallbackKey.parsed.inj equal).symm

theorem get_collect_eq (found : List (Profile × Option Profile)) (parser : JsonParser)
    (profile : Profile) :
    LinkedMap.get (.parsed profile) (collect found parser).fallbackMap =
      (lastFallback found profile).or (LinkedMap.get (.parsed profile) parser.fallbackMap) := by
  induction found generalizing parser with
  | nil => rfl
  | cons object rest ih =>
      rw [collect, List.foldl_cons, ← collect, ih, get_add, lastFallback_cons, Option.or_assoc]

/-- The fallbacks of a document, in the order in which `finalize` comes to them. -/
def fallbacksOf (found : List (Profile × Option Profile)) : List Profile :=
  keptFallbacks (lastFallback found) (found.map Prod.fst)

theorem mem_keptFallbacks {given : Profile → Option Profile} {profiles : List Profile}
    {owner fallback : Profile} (listed : owner ∈ profiles) (filed : given owner = some fallback) :
    fallback ∈ keptFallbacks given profiles := by
  induction profiles generalizing given with
  | nil => cases listed
  | cons profile rest ih =>
      rw [keptFallbacks, List.mem_append, Option.mem_toList]
      by_cases same : owner = profile
      · exact Or.inl (same ▸ filed)
      · have later := (List.mem_cons.mp listed).resolve_left same
        exact Or.inr (ih later (by rw [if_neg same]; exact filed))

/-- The entries that are left for `finalize`. -/
theorem storedFallbacks_createAll {σ : Type} {sink : ProfileSink σ} {last : σ → Int}
    (numbers : Numbers sink last) {found : List (Profile × Option Profile)}
    (wellFormed : (collect found {}).WellFormed) (state : σ) :
    storedFallbacks (createAll sink (collect found {}).fallbackMap state
      (found.map Prod.fst)).1 = fallbacksOf found := by
  have given : (fun profile => LinkedMap.get (.parsed profile) (collect found {}).fallbackMap) =
      lastFallback found := by
    funext profile
    rw [get_collect_eq]
    exact Option.or_none
  have before : storedFallbacks (collect found {}).fallbackMap = [] := by
    rw [storedFallbacks, List.map_eq_nil_iff, List.filter_eq_nil_iff]
    intro entry member
    obtain ⟨_, _, _, key⟩ := wellFormed.fallbacks entry member
    rw [key]
    exact Bool.false_ne_true
  rw [Numbers.stored_createAll (numbers.nodup_answers _) (fun id _ => wellFormed.get_stored id),
    before, given, List.nil_append, fallbacksOf]

end AlienConnection.Database.JsonParser
