import Mathlib.Data.List.Basic

/-!
# Profiles

The entity stored in the profile table, with the source's own field names and
default values, the two derived texts that identify a server, and the settings
a feature profile hands on to imported ones. Numbers that are only compared are
integers; traffic counters are 64-bit words because they are added to. The
`dirty` flag is not a column and belongs to the direct-boot copy.
-/

namespace AlienConnection.Database

/-- A signed 64-bit counter of the source, as its two's-complement word. -/
abbrev Long := BitVec 64

/-- Who manages a profile. `obsolete` marks a profile that is no longer present
in the subscriptions. -/
inductive SubscriptionStatus where
  | userConfigured
  | active
  | obsolete
  deriving DecidableEq, Repr

structure Profile where
  id : Int := 0
  name : Option String := some ""
  host : String := "example.shadowsocks.org"
  remotePort : Int := 8388
  password : String := "u1rRWTssNv0p"
  method : String := "aes-256-cfb"
  route : String := "all"
  remoteDns : String := "dns.google"
  proxyApps : Bool := false
  bypass : Bool := false
  udpdns : Bool := false
  ipv6 : Bool := false
  metered : Bool := false
  individual : String := ""
  plugin : Option String := none
  udpFallback : Option Int := none
  subscription : SubscriptionStatus := .userConfigured
  tx : Long := 0
  rx : Long := 0
  userOrder : Int := 0
  deriving DecidableEq, Repr

namespace Profile

def formattedAddress (profile : Profile) : String :=
  if ':' ∈ profile.host.toList then
    "[" ++ profile.host ++ "]:" ++ toString profile.remotePort
  else profile.host ++ ":" ++ toString profile.remotePort

def formattedName (profile : Profile) : String :=
  match profile.name with
  | none => profile.formattedAddress
  | some name => if name.isEmpty then profile.formattedAddress else name

/-- The pair under which the subscription service files a profile. -/
def subscriptionKey (profile : Profile) : Option String × String :=
  (profile.name, profile.formattedAddress)

def copyFeatureSettingsTo (feature profile : Profile) : Profile :=
  { profile with
    route := feature.route
    ipv6 := feature.ipv6
    metered := feature.metered
    proxyApps := feature.proxyApps
    bypass := feature.bypass
    individual := feature.individual
    udpdns := feature.udpdns }

end Profile

/-- The profile to connect with, and the one its UDP traffic falls back to. -/
structure ExpandedProfile where
  main : Profile
  udpFallback : Option Profile
  deriving DecidableEq, Repr

end AlienConnection.Database
