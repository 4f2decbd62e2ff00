import AlienConnection.Database.ProfileObjects
import AlienConnection.Database.ShareLinkRoundTrip

/-!
# Which profiles an import admits

Links and documents are read by three readers, each with checks of its own. All of them see
to it that there is a method, and where the text itself is split also that there is a host.
What none of them does is to check the port against the range of ports.
-/

namespace AlienConnection.Database

open Library Json

/-- What a server needs to be used, in the range that `deserialize` enforces. -/
structure Profile.Usable (profile : Profile) : Prop where
  host : profile.host ≠ ""
  method : profile.method ≠ ""
  positive : 1 ≤ profile.remotePort
  bounded : profile.remotePort ≤ 65535

/-! ## Links -/

namespace LinkPlatform

variable (platform : LinkPlatform)

/-- The link has a host and a port that is one: for a link with user info in the eyes of
`java.net.URI`, for any other one behind the last colon of the text that it encodes. -/
def WellAddressed (link : Text) : Prop :=
  match (Uri.parse link).userInfo with
  | none => ∀ bytes front port number,
      platform.base64 .standard (platform.uriHost ((Uri.parse link).authority.getD [])) =
        some bytes →
      Text.cutLast ':' (platform.string bytes) = some (front, port) →
      Decimal.parseInt platform.digit port = some number → 1 ≤ number ∧ number ≤ 65535
  | some _ => ∀ host port, platform.javaUri link = some (host, port) →
      withoutBrackets (host.getD []) ≠ [] ∧ 1 ≤ port ∧ port ≤ 65535

variable {platform}

theorem ofList_ne_empty {text : Text} : String.ofList text ≠ "" ↔ text ≠ [] := by
  rw [Ne, Ne, ← String.toList_inj, String.toList_ofList]
  rfl

theorem usable_readLegacy_iff (lowercase : ∀ text, text ≠ [] → platform.lowercase text ≠ [])
    {feature : Option Profile} {link : Text} {profile : Profile}
    (none : (Uri.parse link).userInfo = none)
    (read : platform.readLegacy feature (Uri.parse link) = some profile) :
    profile.Usable ↔ platform.WellAddressed link := by
  simp only [readLegacy, Option.bind_eq_bind, Option.bind_eq_some_iff] at read
  obtain ⟨bytes, decoded, ⟨method, password, host, port⟩, found, number, parsed, made⟩ := read
  have groups := legacyMatch_of_eq_some found
  have last : Text.cutLast ':' (platform.string bytes) =
      some (method ++ ':' :: (password ++ '@' :: host), port) := by
    rw [groups.whole, ← Text.cutLast_append _ groups.unsigned]
    simp
  cases made
  rw [WellAddressed, none]
  constructor
  · intro usable other before digits value otherBytes otherLast otherParsed
    rw [decoded] at otherBytes
    cases otherBytes
    rw [last] at otherLast
    cases otherLast
    rw [parsed] at otherParsed
    cases otherParsed
    exact ⟨usable.positive, usable.bounded⟩
  · intro addressed
    obtain ⟨positive, bounded⟩ := addressed bytes _ port number decoded last parsed
    exact ⟨ofList_ne_empty.mpr groups.hasHost,
      ofList_ne_empty.mpr (lowercase method groups.hasMethod), positive, bounded⟩

theorem userInfoPattern_ne_nil {text method password : Text}
    (found : platform.userInfoPattern text = some (method, password)) : method ≠ [] := by
  cases text with
  | nil => cases found
  | cons first rest =>
      rw [userInfoPattern] at found
      split at found
      · cases found
      · split at found
        · cases found
        · cases found
          exact List.cons_ne_nil _ _

theorem usable_readModern_iff {feature : Option Profile} {link userInfo : Text} {profile : Profile}
    (some : (Uri.parse link).userInfo = some userInfo)
    (read : platform.readModern feature link (Uri.parse link) userInfo = .some profile) :
    profile.Usable ↔ platform.WellAddressed link := by
  simp only [readModern, Option.bind_eq_bind, Option.bind_eq_some_iff] at read
  obtain ⟨bytes, _, ⟨method, password⟩, found, ⟨host, port⟩, parsed, made⟩ := read
  cases made
  rw [WellAddressed, some]
  constructor
  · intro usable other number otherParsed
    rw [parsed] at otherParsed
    cases otherParsed
    exact ⟨ofList_ne_empty.mp usable.host, usable.positive, usable.bounded⟩
  · intro addressed
    obtain ⟨hasHost, positive, bounded⟩ := addressed host port parsed
    exact ⟨ofList_ne_empty.mpr hasHost, ofList_ne_empty.mpr (userInfoPattern_ne_nil found),
      positive, bounded⟩

theorem usable_findAllUrls_iff (lowercase : ∀ text, text ≠ [] → platform.lowercase text ≠ [])
    (feature : Option Profile) (data : Text) :
    (∀ profile ∈ platform.findAllUrls data feature, profile.Usable) ↔
      ∀ link ∈ platform.findAll 0 data, (platform.readLink feature link).isSome →
        platform.WellAddressed link := by
  have each (link : Text) {profile : Profile}
      (read : platform.readLink feature link = some profile) :
      profile.Usable ↔ platform.WellAddressed link := by
    rw [readLink] at read
    cases userInfo : (Uri.parse link).userInfo with
    | none =>
        simp only [userInfo] at read
        exact usable_readLegacy_iff lowercase userInfo read
    | some text =>
        simp only [userInfo] at read
        exact usable_readModern_iff userInfo read
  constructor
  · intro usable link listed isRead
    obtain ⟨profile, read⟩ := Option.isSome_iff_exists.mp isRead
    exact (each link read).mp (usable profile (List.mem_filterMap.mpr ⟨link, listed, read⟩))
  · intro addressed profile member
    obtain ⟨link, listed, read⟩ := List.mem_filterMap.mp member
    exact (each link read).mpr (addressed link listed (Option.isSome_of_eq_some read))

end LinkPlatform

/-! ## Documents -/

namespace JsonParser

section

variable (runtime : Runtime)

/-- The port of an object, as far as it has one, is not above the range. -/
def PortBounded (members : List (String × Json)) : Prop :=
  ∀ port, optInt runtime (LinkedMap.get "server_port" members) = some port → port ≤ 65535

/-- The object from which the fallback of a profile object is read. -/
def fallbackObject (members : List (String × Json)) : Option (List (String × Json)) :=
  (optObject (LinkedMap.get "udp_fallback" members)).filter
    (fun inner => (parseServer runtime inner).isSome)

variable (feature : Option Profile)

/-- A later object takes the place of the fallback of an earlier one: it has a fallback, and
is read as an equal profile. -/
def Overrides (later members : List (String × Json)) : Prop :=
  ∃ profile given other, readObject runtime feature later = .ok (profile, some given) ∧
    readObject runtime feature members = .ok (profile, other)

/-- No port of a profile object is above the range, nor that of a fallback that counts. -/
structure PortsBounded (json : Json) : Prop where
  profiles : ∀ members ∈ profileObjects runtime json, PortBounded runtime members
  fallbacks : ∀ front members back inner,
    profileObjects runtime json = front ++ members :: back →
    fallbackObject runtime members = some inner →
    (∀ later ∈ back, ¬ Overrides runtime feature later members) → PortBounded runtime inner

end

section

variable {σ : Type}

def recording (sink : ProfileSink σ) : ProfileSink (σ × List Profile) where
  create := fun state profile =>
    ((sink.create state.1 profile).1, (sink.create state.1 profile).2, state.2 ++ [profile])
  getAllProfiles := fun state => sink.getAllProfiles state.1
  setFallback := fun state id target =>
    (((sink.setFallback state.1 id target).1, state.2), (sink.setFallback state.1 id target).2)

def handed (sink : ProfileSink σ) (runtime : Runtime) (feature : Option Profile) (json : Json)
    (state : σ) : List Profile :=
  (parseJson (recording sink) runtime feature json (state, [])).1.2

end

/-- Every profile that is handed over can be used, whatever the callback does with it. -/
def HandsUsable (runtime : Runtime) (feature : Option Profile) (json : Json) : Prop :=
  ∀ (σ : Type) (sink : ProfileSink σ) (state : σ),
    ∀ profile ∈ handed sink runtime feature json state, profile.Usable

/-! ### What is handed over -/

section

variable {σ : Type} {sink : ProfileSink σ}

theorem mem_createAll {fallbackMap : List (FallbackKey × Profile)} {state : σ}
    {profiles : List Profile} {entry : FallbackKey × Profile}
    (member : entry ∈ (createAll sink fallbackMap state profiles).1) :
    entry.2 ∈ fallbackMap.map Prod.snd := by
  induction profiles generalizing fallbackMap state with
  | nil => exact List.mem_map_of_mem member
  | cons profile rest ih =>
      rw [Numbers.createAll_cons] at member
      obtain ⟨other, inside, same⟩ := List.mem_map.mp (ih member)
      rw [← same]
      rw [Numbers.mapAfter] at inside
      split at inside
      · exact List.mem_map_of_mem (List.mem_filter.mp inside).1
      next fallback found =>
        rcases LinkedMap.mem_put inside with before | ⟨_, value⟩
        · exact List.mem_map_of_mem (List.mem_filter.mp before).1
        · rw [value]
          exact List.mem_map_of_mem (LinkedMap.mem_of_get found)

theorem noted_createAll (fallbackMap : List (FallbackKey × Profile)) (state : σ × List Profile)
    (profiles : List Profile) :
    (createAll (recording sink) fallbackMap state profiles).2.2 = state.2 ++ profiles := by
  induction profiles generalizing fallbackMap state with
  | nil => exact (List.append_nil _).symm
  | cons profile rest ih =>
      rw [Numbers.createAll_cons, ih]
      exact List.append_assoc state.2 [profile] rest

theorem mem_noted_finalizeAll {listing : List Profile} {entries : List (FallbackKey × Profile)}
    {state : σ × List Profile} {profile : Profile}
    (member : profile ∈ (finalizeAll (recording sink) listing state entries).1.2) :
    profile ∈ state.2 ∨ profile ∈ entries.map Prod.snd := by
  induction entries generalizing state with
  | nil => exact Or.inl member
  | cons entry rest ih =>
      obtain ⟨key, fallback⟩ := entry
      have resolved : profile ∈ (resolve (recording sink) listing state fallback).2.2 →
          profile ∈ state.2 ∨ profile ∈ fallback :: rest.map Prod.snd := by
        intro noted
        rw [resolve] at noted
        split at noted
        · exact Or.inl noted
        · rcases List.mem_append.mp noted with before | here
          · exact Or.inl before
          · rw [List.mem_singleton.mp here]
            exact Or.inr List.mem_cons_self
      cases key with
      | parsed other => exact resolved member
      | stored id =>
          simp only [finalizeAll] at member
          split at member
          · rcases ih member with before | later
            · exact resolved before
            · exact Or.inr (List.mem_cons_of_mem _ later)
          · exact resolved member

/-- Nothing else is handed over than the profiles of a document and their fallbacks. -/
theorem mem_handed {runtime : Runtime} {feature : Option Profile} {json : Json}
    {found : List (Profile × Option Profile)}
    (describes : described runtime feature json = .ok found) {state : σ} {profile : Profile}
    (member : profile ∈ handed sink runtime feature json state) :
    profile ∈ found.map Prod.fst ∨ ∃ owner, lastFallback found owner = some profile := by
  have wellFormed := wellFormed_of_described describes
  simp only [handed, parseJson_of_described describes] at member
  rcases mem_noted_finalizeAll member with stored | fallback
  · rw [noted_createAll] at stored
    exact Or.inl stored
  · obtain ⟨entry, inside, same⟩ := List.mem_map.mp fallback
    obtain ⟨⟨key, value⟩, listed, equal⟩ := List.mem_map.mp (mem_createAll inside)
    obtain ⟨_, owner, _, rfl⟩ := wellFormed.fallbacks _ listed
    have filed := (LinkedMap.get_eq_some_iff (@nodup_collect found {} List.nodup_nil)).mpr listed
    rw [get_collect_eq] at filed
    refine Or.inr ⟨owner, ?_⟩
    rw [← same, ← equal, ← filed]
    exact Option.or_none.symm

theorem handed_of_error {runtime : Runtime} {feature : Option Profile} {json : Json}
    {message : String} (fails : described runtime feature json = .error message) (state : σ) :
    handed sink runtime feature json state = [] := by
  rw [handed, parseJson, process_eq, fails]
  rfl

end

def numbering : ProfileSink Int where
  create := fun last _ => (last + 1, last + 1)
  getAllProfiles := fun _ => []
  setFallback := fun last _ _ => (last, true)

/-- It is given everything that a document has. -/
theorem handed_numbering {runtime : Runtime} {feature : Option Profile} {json : Json}
    {found : List (Profile × Option Profile)}
    (describes : described runtime feature json = .ok found) :
    handed numbering runtime feature json 0 = found.map Prod.fst ++ fallbacksOf found := by
  have wellFormed := wellFormed_of_described describes
  have profiles : (collect found {}).profiles = found.map Prod.fst := profiles_collect
  have numbers : Numbers (recording numbering) (fun state => state.1) :=
    ⟨fun _ _ => rfl, fun _ _ => rfl⟩
  have keeps : Keeps (recording numbering) (fun offered state => state.2 = offered)
      (fun _ _ => True) := by
    constructor
    · rintro offered state profile _ rfl
      exact ⟨rfl, trivial, fun _ _ => trivial⟩
    · rintro offered state id target rfl _
      exact ⟨rfl, rfl, fun _ _ => trivial⟩
  obtain ⟨created, ready⟩ := @Keeps.createAll _ _ _ _ keeps _ wellFormed.profiles [] (0, []) rfl _
    (wellFormed.ready _) _ (fun entry member => List.mem_map_of_mem member)
  obtain ⟨_, last⟩ := keeps.finalizeAll_offers [] _ created
    (fun entry member => (ready entry member).1)
  have all (fallbacks : List Profile) : unmatched [] fallbacks = fallbacks :=
    List.filter_true fallbacks
  rw [profiles] at last ready
  rw [all, ← storedFallbacks_of_ready (fun entry member => (ready entry member).1),
    storedFallbacks_createAll numbers wellFormed] at last
  simp only [handed, parseJson_of_described describes]
  exact last

/-! ### What an object describes -/

section

variable (runtime : Runtime)

/-- An object describes a server: it has all that is checked, and its port. -/
structure DescribesServer (members : List (String × Json)) (profile : Profile) : Prop where
  host : profile.host ≠ ""
  method : profile.method ≠ ""
  positive : 1 ≤ profile.remotePort
  port : optInt runtime (LinkedMap.get "server_port" members) = some profile.remotePort

end

section

variable {runtime : Runtime} {feature : Option Profile} {members : List (String × Json)}
  {profile : Profile}

theorem DescribesServer.usable_iff (describes : DescribesServer runtime members profile) :
    profile.Usable ↔ PortBounded runtime members := by
  constructor
  · intro usable port found
    rw [describes.port] at found
    cases found
    exact usable.bounded
  · intro bounded
    exact ⟨describes.host, describes.method, describes.positive, bounded _ describes.port⟩

theorem nonEmpty_eq_some {text : Option String} {value : String}
    (found : nonEmpty text = some value) : value ≠ "" := by
  obtain ⟨_, nonempty⟩ := Option.filter_eq_some_iff.mp found
  rintro rfl
  cases nonempty

theorem describesServer_parseServer (parsed : parseServer runtime members = some profile) :
    DescribesServer runtime members profile := by
  simp only [parseServer, Option.bind_eq_bind, Option.bind_eq_some_iff] at parsed
  obtain ⟨host, hasHost, port, hasPort, rest⟩ := parsed
  split at rest
  · cases rest
  next positive =>
    simp only [Option.bind_eq_some_iff] at rest
    obtain ⟨password, _, method, hasMethod, made⟩ := rest
    cases made
    refine ⟨nonEmpty_eq_some hasHost, nonEmpty_eq_some hasMethod, ?_, hasPort⟩
    change 1 ≤ port
    omega

theorem describesServer_tryParseFallback
    (parsed : tryParseFallback runtime feature members = .ok (some profile)) :
    DescribesServer runtime members profile := by
  simp only [tryParseFallback] at parsed
  split at parsed
  · cases parsed
  next server found =>
    obtain ⟨host, method, positive, port⟩ := describesServer_parseServer found
    split at parsed
    · cases parsed
    · cases parsed
      cases feature with
      | none => exact ⟨host, method, positive, port⟩
      | some feature => exact ⟨host, method, positive, port⟩

theorem DescribesServer.parseSettings (describes : DescribesServer runtime members profile) :
    DescribesServer runtime members (parseSettings members profile) := by
  obtain ⟨host, method, positive, port⟩ := describes
  simp only [JsonParser.parseSettings]
  split
  · exact ⟨host, method, positive, port⟩
  · exact ⟨host, method, positive, port⟩

/-- A profile object describes its profile, and what its fallback is read from describes the
fallback. -/
theorem describesServer_readObject {given : Option Profile}
    (read : readObject runtime feature members = .ok (profile, given)) :
    DescribesServer runtime members profile ∧
      match fallbackObject runtime members with
      | none => given = none
      | some inner =>
          ∃ fallback, given = some fallback ∧ DescribesServer runtime inner fallback := by
  have parsed := readObject_eq_ok_iff.mp read
  simp only [tryParse] at parsed
  split at parsed
  · cases parsed
  · cases parsed
  next server found =>
    have describes := (describesServer_tryParseFallback found).parseSettings
    split at parsed
    next absent =>
      cases parsed
      rw [fallbackObject, absent]
      exact ⟨describes, rfl⟩
    next inner present =>
      split at parsed
      · cases parsed
      next fallback foundInner =>
        cases parsed
        refine ⟨describes, ?_⟩
        rw [fallbackObject, present]
        cases server : parseServer runtime inner with
        | none =>
            rw [tryParseFallback_of_none server] at foundInner
            cases foundInner
            rw [Option.filter_some_neg (by rw [server]; rfl)]
        | some other =>
            rw [Option.filter_some_pos (by rw [server]; rfl)]
            cases given with
            | none =>
                simp only [tryParseFallback, server] at foundInner
                split at foundInner <;> cases foundInner
            | some fallback => exact ⟨fallback, rfl, describesServer_tryParseFallback foundInner⟩

/-! ### The fallback that counts -/

variable {objects : List (List (String × Json))} {found : List (Profile × Option Profile)}
  {owner fallback : Profile}

theorem lastFallback_isSome
    (read : List.Forall₂ (fun members object => readObject runtime feature members = .ok object)
      objects found) (listed : members ∈ objects)
    (own : readObject runtime feature members = .ok (owner, some fallback)) :
    (lastFallback found owner).isSome := by
  induction read with
  | nil => cases listed
  | @cons first object _ _ here _ ih =>
      rw [lastFallback_cons, Option.isSome_or, Bool.or_eq_true]
      rcases List.mem_cons.mp listed with same | later
      · rw [← same, own] at here
        cases here
        rw [if_pos rfl]
        exact Or.inr rfl
      · exact Or.inl (ih later)

/-- A fallback that is filed was read from an object that no later one overrides. -/
theorem object_of_lastFallback
    (read : List.Forall₂ (fun members object => readObject runtime feature members = .ok object)
      objects found) (filed : lastFallback found owner = some fallback) :
    ∃ front members back, objects = front ++ members :: back ∧
      readObject runtime feature members = .ok (owner, some fallback) ∧
      ∀ later ∈ back, ¬ Overrides runtime feature later members := by
  induction read with
  | nil => cases filed
  | @cons first object rest others here later ih =>
      rw [lastFallback_cons] at filed
      cases behind : lastFallback others owner with
      | some other =>
          rw [behind, Option.some_or] at filed
          obtain ⟨front, members, back, whole, own, last⟩ := ih (behind.trans filed)
          exact ⟨first :: front, members, back, congrArg (first :: ·) whole, own, last⟩
      | none =>
          rw [behind, Option.none_or] at filed
          split at filed
          next same =>
            have own : readObject runtime feature first = .ok (owner, some fallback) := by
              rw [here, ← same, ← filed]
            refine ⟨[], first, rest, rfl, own, ?_⟩
            rintro members listed ⟨profile, given, other, readLater, readFirst⟩
            rw [own] at readFirst
            cases readFirst
            have filedLater := lastFallback_isSome later listed readLater
            rw [behind] at filedLater
            cases filedLater
          next => cases filed

/-- The fallback of an object that no later one overrides is filed. -/
theorem lastFallback_of_object {front back : List (List (String × Json))}
    (read : List.Forall₂ (fun members object => readObject runtime feature members = .ok object)
      (front ++ members :: back) found)
    (own : readObject runtime feature members = .ok (owner, some fallback))
    (last : ∀ later ∈ back, ¬ Overrides runtime feature later members) :
    lastFallback found owner = some fallback := by
  induction front generalizing found with
  | nil =>
      obtain ⟨object, others, here, later, rfl⟩ := List.forall₂_cons_left_iff.mp read
      rw [own] at here
      cases here
      rw [lastFallback_cons, if_pos rfl]
      cases behind : lastFallback others owner with
      | none => rfl
      | some other =>
          obtain ⟨before, overriding, after, whole, readLater, _⟩ :=
            object_of_lastFallback later behind
          refine absurd ⟨owner, other, _, readLater, own⟩ (last overriding ?_)
          rw [whole]
          exact List.mem_append_right _ List.mem_cons_self
  | cons first front ih =>
      obtain ⟨object, others, _, later, rfl⟩ := List.forall₂_cons_left_iff.mp read
      rw [lastFallback_cons, ih later]
      rfl

end

/-- A document hands over usable profiles exactly if its ports are not above the range. -/
theorem handsUsable_iff (runtime : Runtime) (feature : Option Profile) (json : Json) :
    HandsUsable runtime feature json ↔
      ((∃ found, described runtime feature json = .ok found) →
        PortsBounded runtime feature json) := by
  constructor
  · rintro hands ⟨found, describes⟩
    have read := Machine.mapM_eq_ok_iff.mp describes
    have usable : ∀ profile ∈ found.map Prod.fst ++ fallbacksOf found, profile.Usable := by
      rw [← handed_numbering describes]
      exact hands Int numbering 0
    constructor
    · intro members listed
      obtain ⟨⟨profile, given⟩, own⟩ := Machine.ok_of_mem_mapM describes listed
      have member := Machine.mem_mapM describes listed own
      exact (describesServer_readObject own).1.usable_iff.mp
        (usable profile (List.mem_append_left _ (List.mem_map_of_mem member)))
    · intro front members back inner whole filed last
      have listed : members ∈ profileObjects runtime json := by
        rw [whole]
        exact List.mem_append_right _ List.mem_cons_self
      obtain ⟨⟨profile, given⟩, own⟩ := Machine.ok_of_mem_mapM describes listed
      have member := Machine.mem_mapM describes listed own
      have describesInner := (describesServer_readObject own).2
      rw [filed] at describesInner
      obtain ⟨fallback, rfl, server⟩ := describesInner
      rw [whole] at read
      have kept : fallback ∈ fallbacksOf found :=
        mem_keptFallbacks (List.mem_map_of_mem member) (lastFallback_of_object read own last)
      exact server.usable_iff.mp (usable fallback (List.mem_append_right _ kept))
  · intro bounded σ sink state profile member
    cases describes : described runtime feature json with
    | error message =>
        rw [handed_of_error describes] at member
        cases member
    | ok found =>
        obtain ⟨profiles, fallbacks⟩ := bounded ⟨found, describes⟩
        rcases mem_handed describes member with own | ⟨owner, filed⟩
        · obtain ⟨⟨_, given⟩, listed, rfl⟩ := List.mem_map.mp own
          obtain ⟨members, inside, read⟩ := Machine.exists_of_mem_mapM describes listed
          exact (describesServer_readObject read).1.usable_iff.mpr (profiles members inside)
        · obtain ⟨front, members, back, whole, read, last⟩ :=
            object_of_lastFallback (Machine.mapM_eq_ok_iff.mp describes) filed
          have describesInner := (describesServer_readObject read).2
          cases inner : fallbackObject runtime members with
          | none =>
              rw [inner] at describesInner
              cases describesInner
          | some object =>
              rw [inner] at describesInner
              obtain ⟨_, same, server⟩ := describesInner
              cases same
              exact server.usable_iff.mpr (fallbacks front members back object whole inner last)

end JsonParser

/-- What an import admits can be used exactly if the links are well addressed and the ports of
the documents are not above the range. -/
theorem admits_usable_iff {platform : LinkPlatform}
    (lowercase : ∀ text, text ≠ [] → platform.lowercase text ≠ []) (feature : Option Profile)
    (data : Text) (json : Json) :
    ((∀ profile ∈ platform.findAllUrls data feature, profile.Usable) ↔
        ∀ link ∈ platform.findAll 0 data, (platform.readLink feature link).isSome →
          platform.WellAddressed link) ∧
      (JsonParser.HandsUsable platform.toRuntime feature json ↔
        ((∃ found, JsonParser.described platform.toRuntime feature json = .ok found) →
          JsonParser.PortsBounded platform.toRuntime feature json)) :=
  ⟨LinkPlatform.usable_findAllUrls_iff lowercase feature data,
    JsonParser.handsUsable_iff platform.toRuntime feature json⟩

def portedMembers (text : String) (port : Int) : List (String × Json) :=
  [("server", .string "h"), ("server_port", .number text (some port)), ("password", .string "b"),
    ("method", .string "a")]

theorem admits_usable_sample :
    (∀ profile ∈ plainPlatform.findAllUrls "ss://YTpi@h:8388".toList none, profile.Usable) ∧
      JsonParser.HandsUsable plainPlatform.toRuntime none
        (.object (portedMembers "8388" 8388)) := by
  have lowercase : ∀ text, text ≠ [] → plainPlatform.lowercase text ≠ [] := by
    intro text nonempty empty
    exact nonempty (List.map_eq_nil_iff.mp empty)
  obtain ⟨links, documents⟩ := admits_usable_iff lowercase none "ss://YTpi@h:8388".toList
    (.object (portedMembers "8388" 8388))
  constructor
  · apply links.mpr
    intro link listed _
    have only : plainPlatform.findAll 0 "ss://YTpi@h:8388".toList =
        ["ss://YTpi@h:8388".toList] := rfl
    rw [only, List.mem_singleton] at listed
    rw [listed]
    intro host port parsed
    cases parsed
    decide
  · apply documents.mpr
    intro _
    have only : JsonParser.profileObjects plainPlatform.toRuntime
        (.object (portedMembers "8388" 8388)) = [portedMembers "8388" 8388] := rfl
    constructor
    · intro members listed port found
      rw [only, List.mem_singleton] at listed
      rw [listed] at found
      cases found
      decide
    · intro front members back inner whole filed _
      rw [only] at whole
      rcases List.singleton_eq_append_iff.mp whole with ⟨_, single⟩ | ⟨_, none⟩
      · cases single
        cases filed
      · cases none

/-- A link with port 0, and a document with a port above the range. -/
theorem not_admits_usable_port :
    ¬ (∀ profile ∈ plainPlatform.findAllUrls "ss://YTpi@h:0".toList none, profile.Usable) ∧
      ¬ JsonParser.HandsUsable plainPlatform.toRuntime none
        (.object (portedMembers "70000" 70000)) := by
  constructor
  · intro usable
    have found : plainPlatform.findAllUrls "ss://YTpi@h:0".toList none =
        [{ method := "a", password := "b", host := "h", remotePort := 0, name := some "" }] := rfl
    rw [found] at usable
    exact absurd (usable _ List.mem_cons_self).positive (by decide)
  · intro usable
    have given : JsonParser.handed JsonParser.numbering plainPlatform.toRuntime none
        (.object (portedMembers "70000" 70000)) 0 =
        [{ method := "a", password := "b", host := "h", remotePort := 70000, name := none }] := rfl
    have profile := usable Int JsonParser.numbering 0
    rw [given] at profile
    exact absurd (profile _ List.mem_cons_self).bounded (by decide)

end AlienConnection.Database
