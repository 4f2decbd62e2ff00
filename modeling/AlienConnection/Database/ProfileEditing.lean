import AlienConnection.Acl.Acl
import AlienConnection.Database.ProfileTable
import AlienConnection.Library.Decimal
import AlienConnection.Preference.DataStore

/-!
# Editing a profile

While a profile is edited, its columns are in the private store. `serialize` puts them there
and `deserialize` gets them back. The keys are distinct, every key that is got has been put
or removed before, and each column is got as it was put.
-/

namespace AlienConnection.Database

open Library Preference

structure EditRuntime where
  digit : Char → Option Nat
  malformed : KeyValuePair.Malformed

inductive EditError where
  /-- The profile is not the one that is being edited. -/
  | illegalState
  | read (error : KeyValuePair.ReadError)
  deriving DecidableEq

def parsePort (digit : Char → Option Nat) (text : Option String) (default min : Int) : Int :=
  let value := (text.bind fun text => Decimal.parseInt digit text.toList).getD default
  if value < min ∨ value > 65535 then default else value

namespace Profile

/-- Every statement puts or removes one row of the private store. -/
def serialize (profile : Profile) (store : Store) : Store :=
  let store := store.putLong Key.id (some profile.id)
  let store := store.putString Key.name profile.name
  let store := store.putString Key.host (some profile.host)
  let store := store.putString Key.remotePort (some (toString profile.remotePort))
  let store := store.putString Key.password (some profile.password)
  let store := store.putString Key.route (some profile.route)
  let store := store.putString Key.remoteDns (some profile.remoteDns)
  let store := store.putString Key.method (some profile.method)
  let store := store.putBoolean Key.proxyApps profile.proxyApps
  let store := store.putBoolean Key.bypass profile.bypass
  let store := store.putBoolean Key.udpdns profile.udpdns
  let store := store.putBoolean Key.ipv6 profile.ipv6
  let store := store.putBoolean Key.metered profile.metered
  let store := store.putString Key.individual (some profile.individual)
  let store := store.putString Key.plugin (some (profile.plugin.getD ""))
  let store := store.putLong Key.udpFallback profile.udpFallback
  store.remove Key.dirty

def checkEditing (profile : Profile) (store : Store) : Except EditError Unit :=
  if profile.id = 0 then .ok ()
  else
    match store.getLong Key.id with
    | .error error => .error (.read error)
    | .ok editingId => if editingId = some profile.id then .ok () else .error .illegalState

def readBoolean (store : Store) (key : String) : Except EditError Bool :=
  match store.getBoolean key with
  | .error error => .error (.read error)
  | .ok value => .ok (value.getD false)

/-- The profile with its new columns, and the store without the editing id. -/
def deserialize (runtime : EditRuntime) (profile : Profile) (store : Store) :
    Except EditError (Profile × Store) := do
  profile.checkEditing store
  let store := store.putLong Key.id none
  let text (key : String) := (store.getString key runtime.malformed).getD ""
  let remotePort :=
    parsePort runtime.digit (store.getString Key.remotePort runtime.malformed) 8388 1
  let proxyApps ← readBoolean store Key.proxyApps
  let bypass ← readBoolean store Key.bypass
  let udpdns ← readBoolean store Key.udpdns
  let ipv6 ← readBoolean store Key.ipv6
  let metered ← readBoolean store Key.metered
  let udpFallback ←
    match store.getLong Key.udpFallback with
    | .error error => .error (.read error)
    | .ok value => .ok value
  .ok
    ({ profile with
        name := some (text Key.name)
        host := String.ofList (Text.trim Acl.isWhitespace (text Key.host).toList)
        remotePort := remotePort
        password := text Key.password
        method := text Key.method
        route := text Key.route
        remoteDns := text Key.remoteDns
        proxyApps := proxyApps
        bypass := bypass
        udpdns := udpdns
        ipv6 := ipv6
        metered := metered
        individual := text Key.individual
        plugin := some (text Key.plugin)
        udpFallback := udpFallback }, store)

/-! ## What the store holds -/

def assignments (profile : Profile) : List (String × Option KeyValuePair) :=
  let string (key value : String) :=
    KeyValuePair.putString { key := key } (JavaString.ofString value)
  let boolean (key : String) (value : Bool) := some (KeyValuePair.putBoolean { key := key } value)
  let long (key : String) (value : Int) :=
    KeyValuePair.putLong { key := key } (BitVec.ofInt 64 value)
  [(Key.id, some (long Key.id profile.id)),
    (Key.name, profile.name.map (string Key.name)),
    (Key.host, some (string Key.host profile.host)),
    (Key.remotePort, some (string Key.remotePort (toString profile.remotePort))),
    (Key.password, some (string Key.password profile.password)),
    (Key.route, some (string Key.route profile.route)),
    (Key.remoteDns, some (string Key.remoteDns profile.remoteDns)),
    (Key.method, some (string Key.method profile.method)),
    (Key.proxyApps, boolean Key.proxyApps profile.proxyApps),
    (Key.bypass, boolean Key.bypass profile.bypass),
    (Key.udpdns, boolean Key.udpdns profile.udpdns),
    (Key.ipv6, boolean Key.ipv6 profile.ipv6),
    (Key.metered, boolean Key.metered profile.metered),
    (Key.individual, some (string Key.individual profile.individual)),
    (Key.plugin, some (string Key.plugin (profile.plugin.getD ""))),
    (Key.udpFallback, profile.udpFallback.map (long Key.udpFallback)),
    (Key.dirty, none)]

theorem serialize_eq (profile : Profile) (store : Store) :
    profile.serialize store = profile.assignments.foldl
      (fun built item => LinkedMap.assign item.1 item.2 built) store := rfl

theorem nodup_assignments (profile : Profile) : (LinkedMap.keys profile.assignments).Nodup := by
  change [Key.id, Key.name, Key.host, Key.remotePort, Key.password, Key.route, Key.remoteDns,
    Key.method, Key.proxyApps, Key.bypass, Key.udpdns, Key.ipv6, Key.metered, Key.individual,
    Key.plugin, Key.udpFallback, Key.dirty].Nodup
  decide

/-- Whatever the store held before. -/
theorem get_serialize {profile : Profile} {key : String} {value : Option KeyValuePair}
    (listed : (key, value) ∈ profile.assignments) (store : Store) :
    LinkedMap.get key (profile.serialize store) = value := by
  rw [serialize_eq]
  exact LinkedMap.get_foldl_assign profile.nodup_assignments listed store

/-- When the editing id is gone, everything else is still there. -/
theorem get_edited {profile : Profile} {key : String} {value : Option KeyValuePair}
    (listed : (key, value) ∈ profile.assignments) (other : key ≠ Key.id) (store : Store) :
    LinkedMap.get key ((profile.serialize store).putLong Key.id none) = value := by
  rw [Store.putLong, LinkedMap.get_assign_other other, get_serialize listed]

/-! ## The round trip -/

/-- A profile with values of the platform's types, and what the form accepts as host and
port. -/
structure Editable (profile : Profile) : Prop where
  texts : ∀ text ∈ [profile.host, profile.password, profile.method, profile.route,
    profile.remoteDns, profile.individual], JavaString.Fits text
  name : ∀ text ∈ profile.name, JavaString.Fits text
  plugin : ∀ text ∈ profile.plugin, JavaString.Fits text
  numbers : ∀ number ∈ some profile.id, -2 ^ 63 ≤ number ∧ number < 2 ^ 63
  udpFallback : ∀ number ∈ profile.udpFallback, -2 ^ 63 ≤ number ∧ number < 2 ^ 63
  positive : 1 ≤ profile.remotePort
  bounded : profile.remotePort ≤ 65535
  first : ∀ char ∈ profile.host.toList.head?, Acl.isWhitespace char = false
  last : ∀ char ∈ profile.host.toList.getLast?, Acl.isWhitespace char = false

variable {profile : Profile}

/-- A port is written with few digits. -/
theorem Editable.port (editable : profile.Editable) :
    JavaString.Fits (toString profile.remotePort) ∧
      ∀ digit, Decimal.ReadsAscii digit →
        Decimal.parseInt digit (toString profile.remotePort).toList = some profile.remotePort := by
  have positive := editable.positive
  have bounded := editable.bounded
  obtain ⟨number, same, written⟩ :=
    Decimal.exists_toDigits (show 0 ≤ profile.remotePort by omega)
  constructor
  · have short : (Nat.toDigits 10 number).length ≤ 5 :=
      (Nat.length_toDigits_le_iff (by decide) (by decide)).mpr (by omega)
    have units := Text.length_utf16_le_twice (Nat.toDigits 10 number)
    rw [JavaString.Fits, written]
    omega
  · intro digit ascii
    rw [written, Decimal.parseInt_toDigits ascii (by omega), same]

theorem getText (store : Store) (malformed : KeyValuePair.Malformed) {key text : String}
    (listed : (key, some (KeyValuePair.putString { key := key } (JavaString.ofString text))) ∈
      profile.assignments) (other : key ≠ Key.id) (fits : JavaString.Fits text) :
    ((profile.serialize store).putLong Key.id none).getString key malformed = some text :=
  @Store.getString_of_put _ _ malformed (some text) (fun _ same => Option.some.inj same ▸ fits)
    (get_edited listed other store)

theorem getFlag (store : Store) {key : String} {value : Bool}
    (listed : (key, some (KeyValuePair.putBoolean { key := key } value)) ∈ profile.assignments)
    (other : key ≠ Key.id) :
    readBoolean ((profile.serialize store).putLong Key.id none) key = .ok value := by
  rw [readBoolean, Store.getBoolean_of_put (get_edited listed other store)]
  rfl

theorem Editable.checkEditing (editable : profile.Editable) (store : Store) {edited : Profile}
    (same : edited.id = 0 ∨ edited.id = profile.id) :
    edited.checkEditing (profile.serialize store) = .ok () := by
  have editing : (profile.serialize store).getLong Key.id = .ok (some profile.id) :=
    Store.getLong_of_put editable.numbers (get_serialize (by simp [assignments]) store)
  rw [Profile.checkEditing, editing]
  rcases same with new | own
  · rw [if_pos new]
  · rw [own]
    split
    · rfl
    · exact if_pos rfl

theorem Editable.trim_host (editable : profile.Editable) :
    String.ofList (Text.trim Acl.isWhitespace profile.host.toList) = profile.host := by
  rw [Text.trim_eq_self_of_ends editable.first editable.last, String.ofList_toList]

theorem Editable.parsePort {runtime : EditRuntime} (editable : profile.Editable)
    (ascii : Decimal.ReadsAscii runtime.digit) :
    parsePort runtime.digit (some (toString profile.remotePort)) 8388 1 = profile.remotePort := by
  have positive := editable.positive
  have bounded := editable.bounded
  simp only [Database.parsePort, Option.bind_some, editable.port.2 runtime.digit ascii,
    Option.getD_some]
  exact if_neg (by omega)

/-- What was put into the store is got back, by a new profile or by the same one. -/
theorem deserialize_serialize {runtime : EditRuntime} (ascii : Decimal.ReadsAscii runtime.digit)
    (editable : profile.Editable) {edited : Profile}
    (same : edited.id = 0 ∨ edited.id = profile.id) (store : Store) :
    ∃ last : Store,
      edited.deserialize runtime (profile.serialize store) = .ok
        ({ profile with
            id := edited.id
            name := some (profile.name.getD "")
            plugin := some (profile.plugin.getD "")
            subscription := edited.subscription
            tx := edited.tx
            rx := edited.rx
            userOrder := edited.userOrder }, last) ∧
      last.getLong Key.id = .ok none := by
  have fits (text : String) (listed : text ∈ [profile.host, profile.password, profile.method,
    profile.route, profile.remoteDns, profile.individual]) : JavaString.Fits text :=
    editable.texts text listed
  have name : ((profile.serialize store).putLong Key.id none).getString Key.name
      runtime.malformed = profile.name :=
    Store.getString_of_put runtime.malformed editable.name
      (get_edited (by simp [assignments]) (by decide) store)
  have plugin : JavaString.Fits (profile.plugin.getD "") := by
    cases given : profile.plugin with
    | none => decide
    | some text => exact editable.plugin text given
  have udpFallback : ((profile.serialize store).putLong Key.id none).getLong Key.udpFallback =
      .ok profile.udpFallback :=
    Store.getLong_of_put editable.udpFallback
      (get_edited (by simp [assignments]) (by decide) store)
  have text {key text : String} := @getText profile store runtime.malformed key text
  have flag {key : String} {value : Bool} := @getFlag profile store key value
  refine ⟨(profile.serialize store).putLong Key.id none, ?_, ?_⟩
  · rw [deserialize, editable.checkEditing store same]
    simp only [name, udpFallback,
      @text Key.host profile.host (by simp [assignments]) (by decide) (fits _ (by simp)),
      @text Key.remotePort _ (by simp [assignments]) (by decide) editable.port.1,
      @text Key.password profile.password (by simp [assignments]) (by decide) (fits _ (by simp)),
      @text Key.method profile.method (by simp [assignments]) (by decide) (fits _ (by simp)),
      @text Key.route profile.route (by simp [assignments]) (by decide) (fits _ (by simp)),
      @text Key.remoteDns profile.remoteDns (by simp [assignments]) (by decide)
        (fits _ (by simp)),
      @text Key.individual profile.individual (by simp [assignments]) (by decide)
        (fits _ (by simp)),
      @text Key.plugin _ (by simp [assignments]) (by decide) plugin,
      @flag Key.proxyApps profile.proxyApps (by simp [assignments]) (by decide),
      @flag Key.bypass profile.bypass (by simp [assignments]) (by decide),
      @flag Key.udpdns profile.udpdns (by simp [assignments]) (by decide),
      @flag Key.ipv6 profile.ipv6 (by simp [assignments]) (by decide),
      @flag Key.metered profile.metered (by simp [assignments]) (by decide),
      Option.getD_some, editable.trim_host, editable.parsePort ascii]
    rfl
  · rw [Store.getLong, Store.putLong, LinkedMap.get_assign_self]
    rfl

def plainEditRuntime : EditRuntime where
  digit := fun char => if char.isDigit then some (char.toNat - 48) else none
  malformed := fun _ => JavaString.ofString "\uFFFD"

/-- A profile without a name, and a store with rows of other types. -/
theorem deserialize_serialize_sample :
    ∃ last : Store,
      ({ tx := 5, name := some "old" } : Profile).deserialize plainEditRuntime
          (serialize
            { id := 7, name := none, host := "h", remotePort := 443, udpFallback := some 2 }
            [(Key.name, { key := Key.name, valueType := 1 }),
              (Key.bypass, { key := Key.bypass, valueType := 1 })]) =
        .ok ({ name := some "", host := "h", remotePort := 443, plugin := some "",
               udpFallback := some 2, tx := 5 }, last) ∧
      last.getLong Key.id = .ok none := by
  have ascii : Decimal.ReadsAscii plainEditRuntime.digit := by
    unfold Decimal.ReadsAscii
    decide
  have editable : Editable
      { id := 7, name := none, host := "h", remotePort := 443, udpFallback := some 2 } := by
    refine ⟨by decide, nofun, nofun, ?_, ?_, by decide, by decide, ?_, ?_⟩
    · rintro number same
      cases same
      decide
    · rintro number same
      cases same
      decide
    · rintro char same
      cases same
      rfl
    · rintro char same
      cases same
      rfl
  exact deserialize_serialize ascii editable (Or.inl rfl) _

end Profile

end AlienConnection.Database
