import AlienConnection.Database.JsonParser
import AlienConnection.Library.Base64
import AlienConnection.Library.Uri
import AlienConnection.Plugin.PluginConfiguration

/-!
# Share links

A profile is written as a link, and links are cut out of any text and read as profiles.
The regular expressions of the source are written out as the searches that they stand
for. Decoders, the second reader of links that supplies host and port, case folding and
the characters that `.` does not match belong to the platform.
-/

namespace AlienConnection.Database

open Library Plugin

/-- What links use of the platform. `base64` and `javaUri` are nothing when they throw;
`javaUri` gives the host, which may be null, and the port. -/
structure LinkPlatform extends Runtime where
  base64 : Base64.Variant → Text → Option Bytes
  string : Bytes → Text
  uriDecode : Bool → Text → Text
  uriHost : Text → Text
  javaUri : Text → Option (Option Text × Int)
  foldCase : Char → Char
  lineTerminator : Char → Bool
  lowercase : Text → Text
  defaultConfig : String → Option String

namespace LinkPlatform

variable (platform : LinkPlatform)

/-! ## Finding links -/

/-- The class of the last character of `pattern`. -/
def endsLink (char : Char) : Bool :=
  (platform.foldCase char).isLower || char.isDigit ||
    ['-', '+', '&', '@', '#', '/', '%', '=', '.', '~', '*', '\'', '(', ')', '|', '[', ']'].contains
      char

def inLink (char : Char) : Bool :=
  platform.endsLink char || ['?', '!', ':', ',', ';', '_'].contains char

def behindScheme : Text → Option Text
  | first :: second :: ':' :: '/' :: '/' :: rest =>
      if platform.foldCase first = 's' ∧ platform.foldCase second = 's' then some rest else none
  | _ => none

/-- The match of `pattern` at the beginning of a text. The classes are taken as far as
they go, and given back up to a character that may stand last. -/
def matchAt (text : Text) : Option Text :=
  match platform.behindScheme text with
  | none => none
  | some rest =>
      let body := (rest.takeWhile platform.inLink).rdropWhile (fun char => !platform.endsLink char)
      if body.isEmpty then none else some (text.take 5 ++ body)

/-- `pattern.findAll`, behind as many characters as the last match still takes. -/
def findAll : Nat → Text → List Text
  | _, [] => []
  | skip + 1, _ :: rest => findAll skip rest
  | 0, char :: rest =>
      match platform.matchAt (char :: rest) with
      | none => findAll 0 rest
      | some link => link :: findAll (link.length - 1) rest

/-! ## Reading links -/

def userInfoPattern : Text → Option (Text × Text)
  | [] => none
  | first :: rest =>
      match Text.cut ':' rest with
      | (_, none) => none
      | (front, some password) =>
          if (first :: (front ++ password)).any platform.lineTerminator then none
          else some (first :: front, password)

/-- The groups of `legacyPattern`. The host has a character at least, so that an at sign
just before the last colon belongs to it. -/
def legacyPattern : Text → Option (Text × Text × Text × Text)
  | [] => none
  | first :: rest => do
      let (front, behind) := Text.cut ':' rest
      let (server, port) ← Text.cutLast ':' (← behind)
      let last ← server.getLast?
      let (password, host) ← Text.cutLast '@' server.dropLast
      if (first :: (front ++ password ++ host ++ [last])).any platform.lineTerminator ∨ port = [] ∨
          port.any (fun char => (platform.digit char).isNone) then none
      else some (first :: front, password, host ++ [last], port)

def withoutBrackets (host : Text) : Text :=
  if host.head? = some '[' ∧ host.getLast? = some ']' then (host.drop 1).dropLast else host

def blank (feature : Option Profile) : Profile :=
  match feature with
  | none => {}
  | some feature => feature.copyFeatureSettingsTo {}

def pluginOf (uri : Uri) : Option String :=
  (uri.queryParameter (platform.uriDecode true) "plugin".toList).map String.ofList

def nameOf (uri : Uri) : Option String :=
  uri.fragment.map (fun fragment => String.ofList (platform.uriDecode false fragment))

def readLegacy (feature : Option Profile) (uri : Uri) : Option Profile := do
  let bytes ← platform.base64 .standard (platform.uriHost (uri.authority.getD []))
  let (method, password, host, port) ← platform.legacyPattern (platform.string bytes)
  let remotePort ← Decimal.parseInt platform.digit port
  some
    { blank feature with
      method := String.ofList (platform.lowercase method)
      password := String.ofList password
      host := String.ofList host
      remotePort := remotePort
      plugin := platform.pluginOf uri
      name := platform.nameOf uri }

def readModern (feature : Option Profile) (link : Text) (uri : Uri) (userInfo : Text) :
    Option Profile := do
  let bytes ← platform.base64 .urlSafe (platform.uriDecode false userInfo)
  let (method, password) ← platform.userInfoPattern (platform.string bytes)
  let (host, port) ← platform.javaUri link
  some
    { blank feature with
      method := String.ofList method
      password := String.ofList password
      host := String.ofList (withoutBrackets (host.getD []))
      remotePort := port
      plugin := platform.pluginOf uri
      name := some ((platform.nameOf uri).getD "") }

/-- One link. Whatever is wrong with it is logged, and it is left out. -/
def readLink (feature : Option Profile) (link : Text) : Option Profile :=
  let uri := Uri.parse link
  match uri.userInfo with
  | none => platform.readLegacy feature uri
  | some userInfo => platform.readModern feature link uri userInfo

def findAllUrls (data : Text) (feature : Option Profile) : List Profile :=
  (platform.findAll 0 data).filterMap (platform.readLink feature)

end LinkPlatform

/-! ## Writing links -/

def unreserved (char : Char) : Bool :=
  char.isAlphanum || ['_', '-', '!', '.', '~', '\'', '(', ')', '*'].contains char

def wrapHost (host : Text) : Text := if ':' ∈ host then '[' :: host ++ [']'] else host

def linkServer (auth host : Text) (port : Int) : Text :=
  auth ++ '@' :: host ++ ':' :: (toString port).toList

def pluginKey : Text := "plugin=".toList

def linkQuery : Option Text → Text
  | none => []
  | some plugin => '?' :: pluginKey ++ Percent.encode unreserved plugin

def linkFragment : Option Text → Text
  | none => []
  | some name => '#' :: Percent.encode unreserved name

def linkScheme : Text := "ss://".toList

def composeLink (server : Text) (plugin name : Option Text) : Text :=
  linkScheme ++ (server ++ linkQuery plugin ++ linkFragment name)

namespace Profile

def auth (profile : Profile) : Text :=
  Base64.encode .urlSafe (Text.utf8 (profile.method.toList ++ ':' :: profile.password.toList))

def server (profile : Profile) : Text :=
  linkServer profile.auth (wrapHost profile.host.toList) profile.remotePort

def linkPlugin (platform : LinkPlatform) (profile : Profile) : Except String (Option Text) := do
  let configuration ← PluginConfiguration.read (profile.plugin.getD "")
  if configuration.selected = "" then .ok none
  else
    let options ← configuration.selectedOptions platform.defaultConfig
    .ok (some (options.render platform.hashOrder false).toList)

/-- `toUri`, as text. The failure is that of the plugin column. -/
def toUri (platform : LinkPlatform) (profile : Profile) : Except String Text := do
  let plugin ← profile.linkPlugin platform
  .ok (composeLink profile.server plugin ((nonEmpty profile.name).map String.toList))

end Profile

end AlienConnection.Database
