import AlienConnection.Library.LinkedMap

/-!
# Plugin options

The option text of a plugin is cut into tokens at backslashes, equality signs
and semicolons, which are tokens themselves, and read into a hash map. Written
back, the map is walked in its own order; that order is a parameter that maps
the entries as they were put to the entries as they are iterated.
-/

namespace AlienConnection.Plugin

open Library

/-- The order in which a hash map with the given entries is iterated. -/
abbrev HashOrder := List (String × Option String) → List (String × Option String)

structure PluginOptions where
  id : String := ""
  entries : List (String × Option String) := []
  deriving DecidableEq, Repr

namespace PluginOptions

def isISOControl (char : Char) : Bool :=
  decide (char.toNat ≤ 0x1f) || (decide (0x7f ≤ char.toNat) && decide (char.toNat ≤ 0x9f))

def isDelimiter (char : Char) : Bool :=
  char == '\\' || char == '=' || char == ';'

def tokenize : List Char → List (List Char)
  | [] => []
  | char :: rest =>
      match tokenize rest with
      | [] => [[char]]
      | token :: tokens =>
          if isDelimiter char || token.any isDelimiter then [char] :: token :: tokens
          else (char :: token) :: tokens

structure Reader where
  options : PluginOptions := {}
  current : List Char := []
  key : Option String := none
  parseId : Bool
  deriving DecidableEq, Repr

/-- A semicolon ends an option. The first one may be the plugin's name. -/
def Reader.endOption (reader : Reader) : Reader :=
  let text := String.ofList reader.current
  let options :=
    match reader.key with
    | some key => { reader.options with
        entries := LinkedMap.put key (some text) reader.options.entries }
    | none =>
        if reader.current.isEmpty then reader.options
        else if reader.parseId then { reader.options with id := text }
        else { reader.options with entries := LinkedMap.put text none reader.options.entries }
  { options := options, current := [], key := none, parseId := false }

def readTokens : List (List Char) → Reader → Reader
  | [], reader => reader
  | ['\\'] :: next :: rest, reader =>
      readTokens rest { reader with current := reader.current ++ next }
  | ['='] :: rest, reader =>
      match reader.key with
      | none => readTokens rest
          { reader with key := some (String.ofList reader.current), current := [] }
      | some _ => readTokens rest { reader with current := reader.current ++ ['='] }
  | [';'] :: rest, reader => readTokens rest reader.endOption
  | token :: rest, reader => readTokens rest { reader with current := reader.current ++ token }

/-- The private constructor. The failure is the message of its check. -/
def read (options : Option String) (parseId : Bool) : Except String PluginOptions :=
  let text := (options.getD "").toList
  if text.isEmpty then .ok {}
  else if text.any isISOControl then .error "No control characters allowed."
  else .ok (readTokens (tokenize (text ++ [';'])) { parseId := parseId }).options

def withId (id : String) (options : Option String) : Except String PluginOptions :=
  (read options false).map (fun read => { read with id := id })

def append (text : String) : List Char :=
  text.toList.flatMap (fun char => if isDelimiter char then ['\\', char] else [char])

def appendEntries : List Char → List (String × Option String) → List Char
  | result, [] => result
  | result, (key, value) :: rest =>
      let separated := if result.isEmpty then result else result ++ [';']
      let keyed := separated ++ append key
      match value with
      | none => appendEntries keyed rest
      | some text => appendEntries (keyed ++ ['='] ++ append text) rest

def render (order : HashOrder) (options : PluginOptions) (trimId : Bool) : String :=
  if trimId then String.ofList (appendEntries [] (order options.entries))
  else if options.id.isEmpty then ""
  else String.ofList (appendEntries (append options.id) (order options.entries))

end PluginOptions

end AlienConnection.Plugin
