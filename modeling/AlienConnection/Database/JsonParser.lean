import AlienConnection.Database.Profile
import AlienConnection.Library.Decimal
import AlienConnection.Plugin.PluginOptions

/-!
# Reading profiles from JSON

The tree that the JSON library returns for a document is searched for objects
that describe a server. Each one found becomes a profile; a description of a
UDP fallback inside it is kept aside until all profiles of the document have
been handed to the caller.
-/

namespace AlienConnection.Database

open Library Plugin

/-- A JSON tree. A number keeps its text, and the value of `intValue` unless that
throws. -/
inductive Json where
  | null
  | bool (value : Bool)
  | string (text : String)
  | number (text : String) (intValue : Option Int)
  | array (items : List Json)
  | object (members : List (String × Json))

/-- What the parser uses of the platform: the decimal digits, and the order in
which a hash map is iterated. -/
structure Runtime where
  digit : Char → Option Nat
  hashOrder : HashOrder

def asciiRuntime : Runtime where
  digit := fun char => if char.isDigit then some (char.toNat - '0'.toNat) else none
  hashOrder := fun entries => entries

namespace Json

def optString : Option Json → Option String
  | some (.bool value) => some (if value then "true" else "false")
  | some (.string text) => some text
  | some (.number text _) => some text
  | _ => none

def optBoolean : Option Json → Option Bool
  | some (.bool value) => some value
  | _ => none

def optInt (runtime : Runtime) : Option Json → Option Int
  | some (.number _ intValue) => intValue
  | some (.string text) => Decimal.parseInt runtime.digit text.toList
  | _ => none

def optObject : Option Json → Option (List (String × Json))
  | some (.object members) => some members
  | _ => none

def optArray : Option Json → Option (List Json)
  | some (.array items) => some items
  | _ => none

end Json

open Json

/-- A key of the fallback map. Profiles are compared by all of their columns, so
a stored profile equals only itself: it is given by its id. -/
inductive FallbackKey where
  | parsed (profile : Profile)
  | stored (id : Int)
  deriving DecidableEq, Repr

structure JsonParser where
  profiles : List Profile := []
  fallbackMap : List (FallbackKey × Profile) := []
  deriving DecidableEq, Repr

def nonEmpty (text : Option String) : Option String := text.filter (fun text => !text.isEmpty)

namespace JsonParser

section

variable (runtime : Runtime) (feature : Option Profile)

/-- The server of an object: four columns, all of which have to be there. -/
def parseServer (json : List (String × Json)) : Option Profile := do
  let host ← nonEmpty (optString (LinkedMap.get "server" json))
  let remotePort ← optInt runtime (LinkedMap.get "server_port" json)
  if remotePort ≤ 0 then none
  else
    let password ← nonEmpty (optString (LinkedMap.get "password" json))
    let method ← nonEmpty (optString (LinkedMap.get "method" json))
    some { host := host, remotePort := remotePort, password := password, method := method }

def parsePlugin (json : List (String × Json)) : Except String (Option String) :=
  match nonEmpty (optString (LinkedMap.get "plugin" json)) with
  | none => .ok none
  | some id =>
      match PluginOptions.withId id (optString (LinkedMap.get "plugin_opts" json)) with
      | .error message => .error message
      | .ok options => .ok (some (options.render runtime.hashOrder false))

/-- `tryParse(json, fallback = true)`. -/
def tryParseFallback (json : List (String × Json)) : Except String (Option Profile) :=
  match parseServer runtime json with
  | none => .ok none
  | some server =>
      let featured :=
        match feature with
        | none => server
        | some feature => feature.copyFeatureSettingsTo server
      match parsePlugin runtime json with
      | .error message => .error message
      | .ok plugin => .ok (some
          { featured with
            plugin := plugin
            name := optString (LinkedMap.get "remarks" json)
            route := (optString (LinkedMap.get "route" json)).getD featured.route })

def parseProxyApps (json : List (String × Json)) (profile : Profile) : Profile :=
  { profile with
    proxyApps := (optBoolean (LinkedMap.get "enabled" json)).getD profile.proxyApps
    bypass := (optBoolean (LinkedMap.get "bypass" json)).getD profile.bypass
    individual := ((optArray (LinkedMap.get "android_list" json)).map (fun items =>
      "\n".intercalate (items.filterMap (fun item => optString (some item))))).getD
        profile.individual }

def parseSettings (json : List (String × Json)) (profile : Profile) : Profile :=
  let networked := { profile with
    remoteDns := (optString (LinkedMap.get "remote_dns" json)).getD profile.remoteDns
    ipv6 := (optBoolean (LinkedMap.get "ipv6" json)).getD profile.ipv6
    metered := (optBoolean (LinkedMap.get "metered" json)).getD profile.metered }
  let proxied :=
    match optObject (LinkedMap.get "proxy_apps" json) with
    | none => networked
    | some apps => parseProxyApps apps networked
  { proxied with udpdns := (optBoolean (LinkedMap.get "udpdns" json)).getD proxied.udpdns }

/-- `tryParse(json)`: a profile, with the fallback it describes. -/
def tryParse (json : List (String × Json)) :
    Except String (Option (Profile × Option Profile)) :=
  match tryParseFallback runtime feature json with
  | .error message => .error message
  | .ok none => .ok none
  | .ok (some server) =>
      let profile := parseSettings json server
      match optObject (LinkedMap.get "udp_fallback" json) with
      | none => .ok (some (profile, none))
      | some fallbackJson =>
          match tryParseFallback runtime feature fallbackJson with
          | .error message => .error message
          | .ok fallback => .ok (some (profile, fallback))

/-- Add a parsed profile. Its fallback replaces that of an equal profile. -/
def add (parser : JsonParser) (profile : Profile) (fallback : Option Profile) : JsonParser where
  profiles := parser.profiles ++ [profile]
  fallbackMap :=
    match fallback with
    | none => parser.fallbackMap
    | some fallback => LinkedMap.put (.parsed profile) fallback parser.fallbackMap

mutual

/-- Collect the profiles of a tree. An object that is no profile is searched. -/
def process (parser : JsonParser) : Json → Except String JsonParser
  | .object members =>
      match tryParse runtime feature members with
      | .error message => .error message
      | .ok (some (profile, fallback)) => .ok (parser.add profile fallback)
      | .ok none => processMembers parser members
  | .array items => processItems parser items
  | _ => .ok parser

def processMembers (parser : JsonParser) : List (String × Json) → Except String JsonParser
  | [] => .ok parser
  | (_, value) :: rest =>
      match process parser value with
      | .error message => .error message
      | .ok next => processMembers next rest

def processItems (parser : JsonParser) : List Json → Except String JsonParser
  | [] => .ok parser
  | item :: rest =>
      match process parser item with
      | .error message => .error message
      | .ok next => processItems next rest

end

end

end JsonParser

end AlienConnection.Database
