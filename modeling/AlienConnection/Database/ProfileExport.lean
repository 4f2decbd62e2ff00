import AlienConnection.Database.ParseJson
import AlienConnection.Plugin.ReadBack

/-!
# Exporting profiles

Profiles are written as an array of JSON objects. Which members an object has depends on
the profile; what the importer makes of such an object is worked out member by member.
The text between the two JSON libraries stands for its tree.
-/

namespace AlienConnection.Database

open Library Plugin

/-! ## Writing -/

namespace Profile

/-- The members that describe a server. `toJson()` writes nothing else. -/
def serverMembers (profile : Profile) : List (String × Json) :=
  [("server", .string profile.host),
    ("server_port", .number (toString profile.remotePort) (some profile.remotePort)),
    ("password", .string profile.password), ("method", .string profile.method)]

def pluginMembers (order : HashOrder) (options : PluginOptions) : List (String × Json) :=
  if options.id = "" then []
  else [("plugin", .string options.id), ("plugin_opts", .string (options.render order true))]

def remarksMembers (profile : Profile) : List (String × Json) :=
  match profile.name with
  | none => []
  | some name => [("remarks", .string name)]

def appsMembers (profile : Profile) : List (String × Json) :=
  ("enabled", .bool profile.proxyApps) ::
    if profile.proxyApps then
      [("bypass", .bool profile.bypass),
        ("android_list", .array ((profile.individual.toList.splitOn '\n').map (fun line =>
          .string (String.ofList line))))]
    else []

def settingsMembers (profile : Profile) : List (String × Json) :=
  [("route", .string profile.route), ("remote_dns", .string profile.remoteDns),
    ("ipv6", .bool profile.ipv6), ("metered", .bool profile.metered),
    ("proxy_apps", .object profile.appsMembers), ("udpdns", .bool profile.udpdns)]

/-- The profile that is written as the UDP fallback: one of those that are exported, without
a plugin. -/
def exportedFallback (lookup : Int → Option Profile) (profile : Profile) : Option Profile :=
  (profile.udpFallback.bind lookup).filter (fun fallback => (fallback.plugin.getD "").isEmpty)

def fallbackMembers (lookup : Int → Option Profile) (profile : Profile) : List (String × Json) :=
  match profile.exportedFallback lookup with
  | none => []
  | some fallback => [("udp_fallback", .object fallback.serverMembers)]

def members (order : HashOrder) (lookup : Int → Option Profile) (options : PluginOptions)
    (profile : Profile) : List (String × Json) :=
  profile.serverMembers ++ (pluginMembers order options ++ (profile.remarksMembers ++
    (profile.settingsMembers ++ profile.fallbackMembers lookup)))

def pluginOptions (defaultConfig : String → Option String) (profile : Profile) :
    Except String PluginOptions := do
  let configuration ← PluginConfiguration.read (profile.plugin.getD "")
  configuration.selectedOptions defaultConfig

def toJson (runtime : Runtime) (defaultConfig : String → Option String)
    (lookup : Int → Option Profile) (profile : Profile) : Except String Json :=
  (profile.pluginOptions defaultConfig).map (fun options =>
    .object (profile.members runtime.hashOrder lookup options))

end Profile

namespace ProfileManager

/-- A sparse array of profiles: of several with one id the last one counts. -/
def lookup (profiles : List Profile) (id : Int) : Option Profile :=
  profiles.reverse.find? (fun profile => profile.id = id)

def serializeToJson (runtime : Runtime) (defaultConfig : String → Option String)
    (profiles : List Profile) : Except String Json :=
  (profiles.mapM (Profile.toJson runtime defaultConfig (lookup profiles))).map Json.array

end ProfileManager

/-! ## Members -/

namespace Profile

variable {order : HashOrder} {lookup : Int → Option Profile} {options : PluginOptions}
  {profile : Profile} {key : String}

theorem get_pluginMembers (plugin : key ≠ "plugin") (opts : key ≠ "plugin_opts") :
    LinkedMap.get key (pluginMembers order options) = none := by
  rw [pluginMembers]
  split
  · rfl
  · rw [LinkedMap.get, if_neg plugin.symm, LinkedMap.get, if_neg opts.symm]
    rfl

theorem get_remarksMembers (remarks : key ≠ "remarks") :
    LinkedMap.get key profile.remarksMembers = none := by
  rw [remarksMembers]
  split
  · rfl
  · rw [LinkedMap.get, if_neg remarks.symm]
    rfl

theorem get_fallbackMembers (fallback : key ≠ "udp_fallback") :
    LinkedMap.get key (profile.fallbackMembers lookup) = none := by
  rw [fallbackMembers]
  split
  · rfl
  · rw [LinkedMap.get, if_neg fallback.symm]
    rfl

/-- A setting is found in an exported object. -/
theorem get_setting {value : Json} (plugin : key ≠ "plugin") (opts : key ≠ "plugin_opts")
    (remarks : key ≠ "remarks") (server : LinkedMap.get key profile.serverMembers = none)
    (found : LinkedMap.get key profile.settingsMembers = some value) :
    LinkedMap.get key (profile.members order lookup options) = some value := by
  rw [members, LinkedMap.get_append, server, LinkedMap.get_append, get_pluginMembers plugin opts,
    LinkedMap.get_append, get_remarksMembers remarks, LinkedMap.get_append, found]
  rfl

theorem get_plugin : LinkedMap.get "plugin" (profile.members order lookup options) =
    if options.id = "" then none else some (.string options.id) := by
  have server : LinkedMap.get "plugin" profile.serverMembers = none := rfl
  have settings : LinkedMap.get "plugin" profile.settingsMembers = none := rfl
  rw [members, LinkedMap.get_append, server, LinkedMap.get_append, LinkedMap.get_append,
    get_remarksMembers (by decide), LinkedMap.get_append, settings,
    get_fallbackMembers (by decide), pluginMembers]
  split <;> rfl

theorem get_plugin_opts (named : options.id ≠ "") :
    LinkedMap.get "plugin_opts" (profile.members order lookup options) =
      some (.string (options.render order true)) := by
  have server : LinkedMap.get "plugin_opts" profile.serverMembers = none := rfl
  rw [members, LinkedMap.get_append, server, LinkedMap.get_append, pluginMembers, if_neg named]
  rfl

theorem get_remarks : LinkedMap.get "remarks" (profile.members order lookup options) =
    profile.name.map Json.string := by
  have server : LinkedMap.get "remarks" profile.serverMembers = none := rfl
  have settings : LinkedMap.get "remarks" profile.settingsMembers = none := rfl
  rw [members, LinkedMap.get_append, server, LinkedMap.get_append,
    get_pluginMembers (by decide) (by decide), LinkedMap.get_append, LinkedMap.get_append, settings,
    get_fallbackMembers (by decide), remarksMembers]
  cases profile.name <;> rfl

theorem get_udp_fallback : LinkedMap.get "udp_fallback" (profile.members order lookup options) =
    (profile.exportedFallback lookup).map (fun fallback => .object fallback.serverMembers) := by
  have server : LinkedMap.get "udp_fallback" profile.serverMembers = none := rfl
  have settings : LinkedMap.get "udp_fallback" profile.settingsMembers = none := rfl
  rw [members, LinkedMap.get_append, server, LinkedMap.get_append,
    get_pluginMembers (by decide) (by decide), LinkedMap.get_append,
    get_remarksMembers (by decide), LinkedMap.get_append, settings, fallbackMembers]
  cases profile.exportedFallback lookup <;> rfl

end Profile

end AlienConnection.Database
