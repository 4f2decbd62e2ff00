import AlienConnection.Bg.TrafficMonitor

/-!
# Proxy instances

The environment of one native client. Constructing an instance validates the
profile; the platform's Base64 decoder is a parameter that gives the number of
decoded bytes, or nothing when it rejects the text.
-/

namespace AlienConnection.Bg

open Database

def routeCustomRules : String := "custom-rules"

structure ProxyInstance where
  profile : Profile
  route : String
  configFile : Option String := none
  trafficMonitor : Option TrafficMonitor := none
  deriving DecidableEq, Repr

namespace ProxyInstance

def deprecatedMethods : List String := ["aes-192-gcm", "chacha20", "salsa20"]

def keyedMethods : List String :=
  ["2022-blake3-aes-128-gcm", "2022-blake3-aes-256-gcm", "2022-blake3-chacha20-poly1305"]

def checkKeys (decodedSize : String → Option Nat) : List String → Except String Unit
  | [] => .ok ()
  | part :: rest =>
      match decodedSize part with
      | none => .error "bad base-64"
      | some size =>
          if size = 16 ∨ size = 32 then checkKeys decodedSize rest
          else .error "The Base64 Key is invalid."

/-- The constructor. An error is the message of its `IllegalArgumentException`. -/
def init (decodedSize : String → Option Nat) (profile : Profile) (route : String) :
    Except String ProxyInstance :=
  if profile.host.isEmpty || (profile.method != "none" && profile.password.isEmpty) then
    .error "Proxy/Password should not be empty"
  else if profile.method ∈ deprecatedMethods then
    .error ("cipher " ++ profile.method ++ " is deprecated.")
  else if profile.method ∈ keyedMethods then
    match checkKeys decodedSize ((profile.password.toList.splitOn ':').map String.ofList) with
    | .error message => .error message
    | .ok () => .ok { profile := profile, route := route }
  else .ok { profile := profile, route := route }

end ProxyInstance

end AlienConnection.Bg
