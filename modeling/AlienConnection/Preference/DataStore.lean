import AlienConnection.Database.KeyValuePair
import AlienConnection.Library.LinkedMap

/-!
# Preference stores

`RoomPreferenceDataStore` keeps one row for each key. A value is written with its type and
read by a getter of one type, which finds nothing if the row has another type. Putting null
removes the row. The listeners of a store are not part of what it holds.
-/

namespace AlienConnection.Preference

open Library Database

/-! ## Keys -/

namespace Key

def id : String := "profileId"
def name : String := "profileName"
def individual : String := "Proxyed"
def route : String := "route"
def proxyApps : String := "isProxyApps"
def bypass : String := "isBypassApps"
def udpdns : String := "isUdpDns"
def ipv6 : String := "isIpv6"
def metered : String := "metered"
def host : String := "proxy"
def password : String := "sitekey"
def method : String := "encMethod"
def remotePort : String := "remotePortNum"
def remoteDns : String := "remoteDns"
def plugin : String := "plugin"
def udpFallback : String := "udpFallback"
def dirty : String := "profileDirty"
def portProxy : String := "portProxy"
def portLocalDns : String := "portLocalDns"
def portTransproxy : String := "portTransproxy"

end Key

/-! ## The store -/

abbrev Store := List (String × KeyValuePair)

namespace Store

section

variable (store : Store) (key : String)

def remove : Store := LinkedMap.assign key none store

def putBoolean (value : Bool) : Store :=
  LinkedMap.assign key (some (KeyValuePair.putBoolean { key := key } value)) store

/-- `putLong`, where putting null removes the row. -/
def putLong (value : Option Int) : Store :=
  LinkedMap.assign key (value.map fun value =>
    KeyValuePair.putLong { key := key } (BitVec.ofInt 64 value)) store

def putString (value : Option String) : Store :=
  LinkedMap.assign key (value.map fun value =>
    KeyValuePair.putString { key := key } (JavaString.ofString value)) store

def getBoolean : Except KeyValuePair.ReadError (Option Bool) :=
  match LinkedMap.get key store with
  | none => .ok none
  | some pair => pair.boolean

def getLong : Except KeyValuePair.ReadError (Option Int) :=
  match LinkedMap.get key store with
  | none => .ok none
  | some pair => pair.long.map (fun value => value.map BitVec.toInt)

/-- `getInt`: a number of either type, cut to 32 bits. -/
def getInt : Except KeyValuePair.ReadError (Option Int) :=
  match LinkedMap.get key store with
  | none => .ok none
  | some pair => pair.long.map (fun value => value.map (fun value => (value.setWidth 32).toInt))

def getString (malformed : KeyValuePair.Malformed) : Option String :=
  ((LinkedMap.get key store).bind fun pair => pair.string malformed).map JavaString.toString

end

/-! ## What is put is got -/

variable {store : Store} {key : String}

theorem getBoolean_of_put {value : Bool}
    (found : LinkedMap.get key store = some (KeyValuePair.putBoolean { key := key } value)) :
    store.getBoolean key = .ok (some value) := by
  rw [getBoolean, found]
  exact KeyValuePair.boolean_putBoolean _ value

theorem toInt_ofInt {value : Int} (low : -2 ^ 63 ≤ value) (high : value < 2 ^ 63) :
    (BitVec.ofInt 64 value).toInt = value := by
  rw [BitVec.toInt_ofInt]
  exact Int.bmod_eq_of_le (by omega) (by omega)

theorem getLong_of_put {value : Option Int}
    (range : ∀ number ∈ value, -2 ^ 63 ≤ number ∧ number < 2 ^ 63)
    (found : LinkedMap.get key store = value.map fun value =>
      KeyValuePair.putLong { key := key } (BitVec.ofInt 64 value)) :
    store.getLong key = .ok value := by
  rw [getLong, found]
  cases value with
  | none => rfl
  | some number =>
      obtain ⟨low, high⟩ := range number rfl
      dsimp only [Option.map_some]
      rw [KeyValuePair.long_putLong]
      exact congrArg (fun number => Except.ok (some number)) (toInt_ofInt low high)

theorem getString_of_put (malformed : KeyValuePair.Malformed) {value : Option String}
    (fits : ∀ string ∈ value, JavaString.Fits string)
    (found : LinkedMap.get key store = value.map fun value =>
      KeyValuePair.putString { key := key } (JavaString.ofString value)) :
    store.getString key malformed = value := by
  rw [getString, found]
  cases value with
  | none => rfl
  | some string =>
      rw [Option.map_some, Option.bind_some, KeyValuePair.string_putString, Option.map_some,
        JavaString.toString_ofString (fits string rfl)]

end Store

end AlienConnection.Preference
