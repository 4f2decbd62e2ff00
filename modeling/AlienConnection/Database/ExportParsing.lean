import AlienConnection.Database.ProfileExport

/-!
# What the parser makes of an export

An exported object with a password is one profile. An object without one is no profile
for the parser, which searches it and finds the UDP fallback in it, if that has a password.
A document is parsed as what its objects contribute.
-/

namespace AlienConnection.Database

open Library Plugin

structure Profile.Acceptable (profile : Profile) : Prop where
  host : profile.host ≠ ""
  method : profile.method ≠ ""
  password : profile.method = "none" ∨ profile.password ≠ ""
  positive : 1 ≤ profile.remotePort
  bounded : profile.remotePort ≤ 65535

namespace JsonParser

/-! ## The copy of a profile -/

def serverOf (profile : Profile) : Profile where
  host := profile.host
  remotePort := profile.remotePort
  password := profile.password
  method := profile.method

def inherit (feature : Option Profile) (profile : Profile) : Profile :=
  match feature with
  | none => serverOf profile
  | some feature => feature.copyFeatureSettingsTo (serverOf profile)

def storedPlugin (order : HashOrder) (options : PluginOptions) : Option String :=
  if options.id = "" then none
  else some (PluginOptions.render order { options with entries := order options.entries } false)

def copy (order : HashOrder) (feature : Option Profile) (options : PluginOptions)
    (profile : Profile) : Profile :=
  { inherit feature profile with
    plugin := storedPlugin order options
    name := profile.name
    route := profile.route
    remoteDns := profile.remoteDns
    ipv6 := profile.ipv6
    metered := profile.metered
    proxyApps := profile.proxyApps
    bypass := if profile.proxyApps then profile.bypass else (inherit feature profile).bypass
    individual :=
      if profile.proxyApps then profile.individual else (inherit feature profile).individual
    udpdns := profile.udpdns }

/-- The profile that the object of a server alone is read as, if it has a password. -/
def serverCopy (feature : Option Profile) (profile : Profile) : Option Profile :=
  if profile.password = "" then none else some { inherit feature profile with name := none }

variable {runtime : Runtime} {feature : Option Profile} {lookup : Int → Option Profile}
  {options : PluginOptions} {profile : Profile}

theorem nonEmpty_some {text : String} (nonempty : text ≠ "") : nonEmpty (some text) = some text := by
  rw [nonEmpty, Option.filter_some, if_pos]
  simpa using nonempty

theorem parseServer_serverMembers (runtime : Runtime) (acceptable : profile.Acceptable)
    (rest : List (String × Json)) :
    parseServer runtime (profile.serverMembers ++ rest) =
      if profile.password = "" then none else some (serverOf profile) := by
  have host : LinkedMap.get "server" (profile.serverMembers ++ rest) =
      some (.string profile.host) := rfl
  have port : LinkedMap.get "server_port" (profile.serverMembers ++ rest) =
      some (.number (toString profile.remotePort) (some profile.remotePort)) := rfl
  have password : LinkedMap.get "password" (profile.serverMembers ++ rest) =
      some (.string profile.password) := rfl
  have method : LinkedMap.get "method" (profile.serverMembers ++ rest) =
      some (.string profile.method) := rfl
  have positive : ¬ profile.remotePort ≤ 0 := by
    have positive := acceptable.positive
    omega
  simp only [parseServer, host, port, password, method, Json.optString, Json.optInt,
    nonEmpty_some acceptable.host, nonEmpty_some acceptable.method, Option.bind_eq_bind,
    Option.bind_some, if_neg positive]
  split
  next empty =>
    rw [empty]
    rfl
  next filled =>
    rw [nonEmpty_some filled]
    rfl

/-- The object of a server alone. -/
theorem tryParseFallback_serverMembers (acceptable : profile.Acceptable) :
    tryParseFallback runtime feature profile.serverMembers = .ok (serverCopy feature profile) := by
  have server := parseServer_serverMembers runtime acceptable []
  rw [List.append_nil] at server
  rw [tryParseFallback, server, serverCopy]
  by_cases empty : profile.password = ""
  · rw [if_pos empty, if_pos empty]
  · rw [if_neg empty, if_neg empty]
    cases feature <;> rfl

theorem tryParse_serverMembers (runtime : Runtime) (feature : Option Profile)
    (acceptable : profile.Acceptable) :
    tryParse runtime feature profile.serverMembers =
      .ok ((serverCopy feature profile).map (fun found => (found, none))) := by
  rw [tryParse, tryParseFallback_serverMembers acceptable]
  cases serverCopy feature profile <;> rfl

/-! ## Plugins -/

section

variable (walks : PluginOptions.Walks runtime.hashOrder)

include walks

theorem parsePlugin_members (lookup : Int → Option Profile) (profile : Profile)
    (legible : PluginConfiguration.Legible options)
    (clean : options.entries.any PluginOptions.entryHasControl = false) :
    parsePlugin runtime (profile.members runtime.hashOrder lookup options) =
      .ok (storedPlugin runtime.hashOrder options) := by
  rw [parsePlugin, Profile.get_plugin, storedPlugin]
  by_cases unnamed : options.id = ""
  · rw [if_pos unnamed, if_pos unnamed]
    rfl
  · rw [if_neg unnamed, if_neg unnamed, Json.optString, nonEmpty_some unnamed,
      Profile.get_plugin_opts unnamed]
    simp only [Json.optString, PluginOptions.read_render_trimmed walks legible.readable.distinct
      clean legible.readable.entered]

/-- Options with control characters are refused. -/
theorem parsePlugin_control (lookup : Int → Option Profile) (profile : Profile)
    (named : options.id ≠ "")
    (control : options.entries.any PluginOptions.entryHasControl = true) :
    parsePlugin runtime (profile.members runtime.hashOrder lookup options) =
      .error "No control characters allowed." := by
  have marked : (PluginOptions.appendEntries [] (runtime.hashOrder options.entries)).any
      PluginOptions.isISOControl = true := by
    rw [PluginOptions.any_appendEntries rfl rfl rfl]
    exact (PluginOptions.any_walked walks).trans control
  have nonempty : PluginOptions.appendEntries [] (runtime.hashOrder options.entries) ≠ [] := by
    intro empty
    rw [empty] at marked
    cases marked
  rw [parsePlugin, Profile.get_plugin, if_neg named, Json.optString, nonEmpty_some named,
    Profile.get_plugin_opts named]
  simp [Json.optString, PluginOptions.withId, PluginOptions.render, PluginOptions.read, nonempty,
    marked, Except.map]

end

/-! ## Settings -/

theorem intercalate_lines (text : String) :
    "\n".intercalate ((text.toList.splitOn '\n').map String.ofList) = text := by
  apply String.toList_injective
  rw [String.toList_intercalate, List.map_map]
  have lines : String.toList ∘ String.ofList = id := funext (fun _ => String.toList_ofList)
  rw [lines, List.map_id]
  exact List.intercalate_splitOn '\n'

theorem parseProxyApps_appsMembers (featured : Profile) :
    parseProxyApps profile.appsMembers featured =
      { featured with
        proxyApps := profile.proxyApps
        bypass := if profile.proxyApps then profile.bypass else featured.bypass
        individual := if profile.proxyApps then profile.individual else featured.individual } := by
  have texts (lines : List Text) :
      (lines.map (fun line => Json.string (String.ofList line))).filterMap
        (fun item => Json.optString (some item)) = lines.map String.ofList := by
    rw [List.filterMap_map, ← List.filterMap_eq_map]
    rfl
  rw [parseProxyApps, Profile.appsMembers]
  cases profile.proxyApps with
  | false => rfl
  | true =>
      have listed : LinkedMap.get "android_list" (("enabled", Json.bool true) ::
          [("bypass", .bool profile.bypass), ("android_list", .array
            ((profile.individual.toList.splitOn '\n').map (fun line =>
              .string (String.ofList line))))]) =
        some (.array ((profile.individual.toList.splitOn '\n').map (fun line =>
          .string (String.ofList line)))) := rfl
      simp only [if_true, listed, Json.optArray, Option.map_some, Option.getD_some, texts,
        intercalate_lines]
      rfl

/-- The settings of an exported object replace those of the feature profile. -/
theorem parseSettings_members (featured : Profile) :
    parseSettings (profile.members runtime.hashOrder lookup options) featured =
      { featured with
        remoteDns := profile.remoteDns
        ipv6 := profile.ipv6
        metered := profile.metered
        proxyApps := profile.proxyApps
        bypass := if profile.proxyApps then profile.bypass else featured.bypass
        individual := if profile.proxyApps then profile.individual else featured.individual
        udpdns := profile.udpdns } := by
  have remoteDns := @Profile.get_setting runtime.hashOrder lookup options profile "remote_dns" _
    (by decide) (by decide) (by decide) rfl rfl
  have ipv6 := @Profile.get_setting runtime.hashOrder lookup options profile "ipv6" _
    (by decide) (by decide) (by decide) rfl rfl
  have metered := @Profile.get_setting runtime.hashOrder lookup options profile "metered" _
    (by decide) (by decide) (by decide) rfl rfl
  have apps := @Profile.get_setting runtime.hashOrder lookup options profile "proxy_apps" _
    (by decide) (by decide) (by decide) rfl rfl
  have udpdns := @Profile.get_setting runtime.hashOrder lookup options profile "udpdns" _
    (by decide) (by decide) (by decide) rfl rfl
  rw [parseSettings, remoteDns, ipv6, metered, apps, udpdns]
  simp only [Json.optString, Json.optBoolean, Json.optObject, Option.getD_some,
    parseProxyApps_appsMembers]

/-! ## Objects -/

/-- What an exported object contributes: a profile, with its fallback, or nothing. -/
def contribution (order : HashOrder) (feature : Option Profile) (lookup : Int → Option Profile)
    (options : PluginOptions) (profile : Profile) : Option (Profile × Option Profile) :=
  let fallback := (profile.exportedFallback lookup).bind (serverCopy feature)
  if profile.password = "" then fallback.map (fun found => (found, none))
  else some (copy order feature options profile, fallback)

theorem password_inherit : (inherit feature profile).password = profile.password := by
  cases feature <;> rfl

theorem serverCopy_password {found : Profile} (made : serverCopy feature profile = some found) :
    found.password ≠ "" := by
  rw [serverCopy] at made
  split at made
  · cases made
  next filled =>
    cases made
    exact fun empty => filled (password_inherit.symm.trans empty)

/-- The rows that the copy of a fallback stands for. -/
theorem fallbackMatches_serverCopy {found : Profile}
    (made : serverCopy feature profile = some found) {row : Profile} :
    found.fallbackMatches row = true ↔ row.host = profile.host ∧
      row.remotePort = profile.remotePort ∧ row.password = profile.password ∧
      row.method = profile.method ∧ row.plugin.getD "" = "" := by
  have columns : found.host = profile.host ∧ found.remotePort = profile.remotePort ∧
      found.password = profile.password ∧ found.method = profile.method := by
    rw [serverCopy] at made
    split at made
    · cases made
    · cases made
      cases feature <;> exact ⟨rfl, rfl, rfl, rfl⟩
  obtain ⟨host, remotePort, password, method⟩ := columns
  rw [Profile.fallbackMatches, host, remotePort, password, method, Bool.and_eq_true,
    decide_eq_true_iff, String.isEmpty_iff, and_assoc, and_assoc, and_assoc]
  simp only [eq_comm]

/-- Whatever an object contributes has a password. -/
theorem contribution_passwords {order : HashOrder} {found : Profile × Option Profile}
    (made : contribution order feature lookup options profile = some found) :
    found.1.password ≠ "" ∧ ∀ fallback ∈ found.2, fallback.password ≠ "" := by
  rw [contribution] at made
  split at made
  · obtain ⟨copy, given, rfl⟩ := Option.map_eq_some_iff.mp made
    obtain ⟨fallback, _, same⟩ := Option.bind_eq_some_iff.mp given
    exact ⟨serverCopy_password same, fun _ none => nomatch none⟩
  next filled =>
    cases made
    refine ⟨fun empty => filled (password_inherit.symm.trans empty), fun fallback given => ?_⟩
    obtain ⟨_, _, same⟩ := Option.bind_eq_some_iff.mp given
    exact serverCopy_password same

section

variable (walks : PluginOptions.Walks runtime.hashOrder)

include walks

theorem tryParseFallback_members (acceptable : profile.Acceptable)
    (filled : profile.password ≠ "") (legible : PluginConfiguration.Legible options)
    (clean : options.entries.any PluginOptions.entryHasControl = false) :
    tryParseFallback runtime feature (profile.members runtime.hashOrder lookup options) =
      .ok (some { inherit feature profile with
        plugin := storedPlugin runtime.hashOrder options
        name := profile.name
        route := profile.route }) := by
  have route := @Profile.get_setting runtime.hashOrder lookup options profile "route" _
    (by decide) (by decide) (by decide) rfl rfl
  have name : Json.optString (profile.name.map Json.string) = profile.name := by
    cases profile.name <;> rfl
  have plugin := parsePlugin_members walks lookup profile legible clean
  rw [tryParseFallback]
  have server := parseServer_serverMembers runtime acceptable
  rw [if_neg filled] at server
  rw [Profile.members, server, ← Profile.members, plugin, Profile.get_remarks, route, name]
  cases feature <;> rfl

/-- An exported object with a password is read as the copy of its profile. -/
theorem tryParse_members (acceptable : profile.Acceptable)
    (acceptableFallback : ∀ fallback ∈ profile.exportedFallback lookup, fallback.Acceptable)
    (filled : profile.password ≠ "") (legible : PluginConfiguration.Legible options)
    (clean : options.entries.any PluginOptions.entryHasControl = false) :
    tryParse runtime feature (profile.members runtime.hashOrder lookup options) =
      .ok (contribution runtime.hashOrder feature lookup options profile) := by
  rw [tryParse, tryParseFallback_members walks acceptable filled legible clean,
    Profile.get_udp_fallback, contribution]
  simp only [parseSettings_members, if_neg filled]
  cases found : profile.exportedFallback lookup with
  | none => rfl
  | some fallback =>
      simp only [Option.map_some, Json.optObject, Option.bind_some,
        tryParseFallback_serverMembers (acceptableFallback fallback found)]
      rfl

/-- With control characters in the options, reading the object fails. -/
theorem tryParse_control (acceptable : profile.Acceptable) (filled : profile.password ≠ "")
    (named : options.id ≠ "")
    (control : options.entries.any PluginOptions.entryHasControl = true) :
    tryParse runtime feature (profile.members runtime.hashOrder lookup options) =
      .error "No control characters allowed." := by
  have server := parseServer_serverMembers runtime acceptable
  rw [if_neg filled] at server
  have plugin := parsePlugin_control walks lookup profile named control
  rw [tryParse, tryParseFallback, Profile.members, server, ← Profile.members, plugin]

end

def Inert (runtime : Runtime) (feature : Option Profile) (json : Json) : Prop :=
  ∀ parser, process runtime feature parser json = .ok parser

theorem processMembers_inert {members : List (String × Json)}
    (inert : ∀ member ∈ members, Inert runtime feature member.2) (parser : JsonParser)
    (rest : List (String × Json)) :
    processMembers runtime feature parser (members ++ rest) =
      processMembers runtime feature parser rest := by
  induction members with
  | nil => rfl
  | cons member members ih =>
      obtain ⟨name, value⟩ := member
      rw [List.cons_append, processMembers, inert (name, value) List.mem_cons_self parser]
      exact ih (fun other listed => inert other (List.mem_cons_of_mem _ listed))

theorem processItems_inert {items : List Json}
    (inert : ∀ item ∈ items, Inert runtime feature item) (parser : JsonParser) :
    processItems runtime feature parser items = .ok parser := by
  induction items with
  | nil => rfl
  | cons item items ih =>
      rw [processItems, inert item List.mem_cons_self parser]
      exact ih (fun other listed => inert other (List.mem_cons_of_mem _ listed))

theorem inert_string (text : String) : Inert runtime feature (.string text) := fun parser => by
  rw [process] <;> simp

theorem inert_bool (value : Bool) : Inert runtime feature (.bool value) := fun parser => by
  rw [process] <;> simp

theorem inert_number (text : String) (value : Option Int) :
    Inert runtime feature (.number text value) := fun parser => by
  rw [process] <;> simp

theorem inert_serverMembers :
    ∀ member ∈ profile.serverMembers, Inert runtime feature member.2 := by
  intro member listed
  simp only [Profile.serverMembers, List.mem_cons, List.not_mem_nil, or_false] at listed
  rcases listed with rfl | rfl | rfl | rfl
  · exact inert_string _
  · exact inert_number _ _
  · exact inert_string _
  · exact inert_string _

/-- The list of apps is no server. -/
theorem inert_appsMembers : Inert runtime feature (.object profile.appsMembers) := by
  intro parser
  have nothing : tryParse runtime feature profile.appsMembers = .ok none := by
    rw [Profile.appsMembers]
    cases profile.proxyApps <;> rfl
  rw [process, nothing]
  dsimp only
  rw [← List.append_nil profile.appsMembers]
  apply processMembers_inert
  intro member listed
  rw [Profile.appsMembers] at listed
  rcases List.mem_cons.mp listed with rfl | listed
  · exact inert_bool _
  · split at listed
    · simp only [List.mem_cons, List.not_mem_nil, or_false] at listed
      rcases listed with rfl | rfl
      · exact inert_bool _
      · intro parser
        rw [process]
        apply processItems_inert
        intro item inside
        obtain ⟨line, _, rfl⟩ := List.mem_map.mp inside
        exact inert_string _
    · cases listed

/-- The search of an object that is no profile gets to the fallback. -/
theorem processMembers_members (parser : JsonParser) :
    processMembers runtime feature parser (profile.members runtime.hashOrder lookup options) =
      processMembers runtime feature parser (profile.fallbackMembers lookup) := by
  rw [Profile.members, processMembers_inert, processMembers_inert, processMembers_inert,
    processMembers_inert]
  · intro member listed
    simp only [Profile.settingsMembers, List.mem_cons, List.not_mem_nil, or_false] at listed
    rcases listed with rfl | rfl | rfl | rfl | rfl | rfl
    · exact inert_string _
    · exact inert_string _
    · exact inert_bool _
    · exact inert_bool _
    · exact inert_appsMembers
    · exact inert_bool _
  · intro member listed
    rw [Profile.remarksMembers] at listed
    split at listed
    · cases listed
    · cases List.mem_singleton.mp listed
      exact inert_string _
  · intro member listed
    rw [Profile.pluginMembers] at listed
    split at listed
    · cases listed
    · simp only [List.mem_cons, List.not_mem_nil, or_false] at listed
      rcases listed with rfl | rfl
      · exact inert_string _
      · exact inert_string _
  · exact inert_serverMembers

def addContribution (parser : JsonParser) : Option (Profile × Option Profile) → JsonParser
  | none => parser
  | some (profile, fallback) => parser.add profile fallback

/-- An exported object is processed as its contribution. -/
theorem process_members (walks : PluginOptions.Walks runtime.hashOrder)
    (acceptable : profile.Acceptable)
    (acceptableFallback : ∀ fallback ∈ profile.exportedFallback lookup, fallback.Acceptable)
    (legible : PluginConfiguration.Legible options)
    (clean : profile.password ≠ "" →
      options.entries.any PluginOptions.entryHasControl = false) (parser : JsonParser) :
    process runtime feature parser
        (.object (profile.members runtime.hashOrder lookup options)) =
      .ok (parser.addContribution
        (contribution runtime.hashOrder feature lookup options profile)) := by
  rw [process]
  by_cases empty : profile.password = ""
  · have nothing : tryParse runtime feature
        (profile.members runtime.hashOrder lookup options) = .ok none := by
      have server := parseServer_serverMembers runtime acceptable
      rw [if_pos empty] at server
      rw [tryParse, tryParseFallback, Profile.members, server]
    rw [nothing, contribution, if_pos empty]
    dsimp only
    rw [processMembers_members, Profile.fallbackMembers]
    cases found : profile.exportedFallback lookup with
    | none => rfl
    | some fallback =>
        have parsed := tryParse_serverMembers runtime feature (acceptableFallback fallback found)
        simp only [Option.bind_some, processMembers, process, parsed]
        cases made : serverCopy feature fallback with
        | some copy => rfl
        | none =>
            have inert : ∀ member ∈ fallback.serverMembers, Inert runtime feature member.2 :=
              inert_serverMembers
            have skipped := processMembers_inert inert parser []
            rw [List.append_nil] at skipped
            simp only [Option.map_none, skipped, processMembers]
            rfl
  · rw [tryParse_members walks acceptable acceptableFallback empty legible (clean empty)]
    simp only [contribution, if_neg empty]
    rfl

/-! ## Documents -/

def collect (contributions : List (Profile × Option Profile)) (parser : JsonParser) :
    JsonParser :=
  contributions.foldl (fun parser found => parser.add found.1 found.2) parser

theorem processItems_map {α : Type} {items : List α} {write : α → Json}
    {found : α → Option (Profile × Option Profile)}
    (each : ∀ item ∈ items, ∀ parser,
      process runtime feature parser (write item) = .ok (parser.addContribution (found item)))
    (parser : JsonParser) :
    processItems runtime feature parser (items.map write) =
      .ok (collect (items.filterMap found) parser) := by
  induction items generalizing parser with
  | nil => rfl
  | cons item items ih =>
      rw [List.map_cons, processItems, each item List.mem_cons_self parser]
      dsimp only
      rw [ih (fun other listed => each other (List.mem_cons_of_mem _ listed))]
      cases here : found item with
      | none => rw [List.filterMap_cons_none here, addContribution]
      | some pair =>
          rw [List.filterMap_cons_some here]
          rfl

/-- One item that fails makes the document fail. -/
theorem processItems_error {items : List Json} {item : Json} {message : String}
    (listed : item ∈ items)
    (fails : ∀ parser, process runtime feature parser item = .error message)
    (parser : JsonParser) :
    ∃ failure, processItems runtime feature parser items = .error failure := by
  induction items generalizing parser with
  | nil => cases listed
  | cons first items ih =>
      rw [processItems]
      cases here : process runtime feature parser first with
      | error failure => exact ⟨failure, rfl⟩
      | ok next =>
          rcases List.mem_cons.mp listed with same | later
          · rw [← same, fails parser] at here
            cases here
          · exact ih later next

variable {contributions : List (Profile × Option Profile)} {parser : JsonParser}

theorem profiles_collect :
    (collect contributions parser).profiles = parser.profiles ++ contributions.map Prod.fst := by
  induction contributions generalizing parser with
  | nil => exact (List.append_nil _).symm
  | cons found rest ih =>
      rw [collect, List.foldl_cons, ← collect, ih]
      exact List.append_assoc parser.profiles [found.1] (rest.map Prod.fst)

theorem nodup_collect (distinct : (LinkedMap.keys parser.fallbackMap).Nodup) :
    (LinkedMap.keys (collect contributions parser).fallbackMap).Nodup := by
  induction contributions generalizing parser with
  | nil => exact distinct
  | cons found rest ih =>
      obtain ⟨profile, fallback⟩ := found
      apply ih
      cases fallback with
      | none => exact distinct
      | some fallback => exact LinkedMap.nodup_put _ distinct

/-- Fallbacks come from contributions. -/
theorem mem_fallbacks_collect {fallback : Profile}
    (member : fallback ∈ (collect contributions parser).fallbackMap.map Prod.snd) :
    fallback ∈ parser.fallbackMap.map Prod.snd ∨
      ∃ found ∈ contributions, found.2 = some fallback := by
  induction contributions generalizing parser with
  | nil => exact Or.inl member
  | cons found rest ih =>
      rcases ih member with before | ⟨other, listed, same⟩
      · rcases mem_fallbacks_add before with old | own
        · exact Or.inl old
        · exact Or.inr ⟨found, List.mem_cons_self, Option.mem_toList.mp own⟩
      · exact Or.inr ⟨other, List.mem_cons_of_mem _ listed, same⟩

/-- Equal profiles without a fallback leave the fallback of a profile. -/
theorem get_collect_of_none {profile : Profile}
    (plain : ∀ found ∈ contributions, found.1 = profile → found.2 = none) :
    LinkedMap.get (.parsed profile) (collect contributions parser).fallbackMap =
      LinkedMap.get (.parsed profile) parser.fallbackMap := by
  induction contributions generalizing parser with
  | nil => rfl
  | cons found rest ih =>
      obtain ⟨other, given⟩ := found
      rw [collect, List.foldl_cons, ← collect,
        ih (fun other listed => plain other (List.mem_cons_of_mem _ listed))]
      cases given with
      | none => rfl
      | some given =>
          apply LinkedMap.get_put_other
          intro same
          cases plain _ List.mem_cons_self (FallbackKey.parsed.inj same).symm

/-- The last of several equal profiles with a fallback counts. -/
theorem get_collect {front back : List (Profile × Option Profile)} {profile fallback : Profile}
    (plain : ∀ found ∈ back, found.1 = profile → found.2 = none) :
    LinkedMap.get (.parsed profile)
      (collect (front ++ (profile, some fallback) :: back) parser).fallbackMap = some fallback := by
  rw [collect, List.foldl_append, List.foldl_cons, ← collect, get_collect_of_none plain]
  exact LinkedMap.get_put_self _ _ _

end JsonParser

end AlienConnection.Database
