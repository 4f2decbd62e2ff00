import AlienConnection.Database.ProfileEditing

/-!
# Local ports

The ports on which the service listens are kept as texts, but older versions kept them as
numbers. A number is taken over as it is and stored as a text; a text is parsed, and one that
is no port gives the default. So a number that is no port is read once as it is, and from then
on as the default.
-/

namespace AlienConnection.Preference

open Library Database

namespace DataStore

variable (runtime : EditRuntime) (userIndex : Int)

/-- The port, and the store afterwards. The sum is that of two `Int`s. -/
def getLocalPort (key : String) (default : Int) (store : Store) :
    Except KeyValuePair.ReadError (Int × Store) :=
  match store.getInt key with
  | .error error => .error error
  | .ok (some value) => .ok (value, store.putString key (some (toString value)))
  | .ok none =>
      .ok (parsePort runtime.digit (store.getString key runtime.malformed)
        ((default + userIndex).bmod (2 ^ 32)) 1025, store)

def portProxy := getLocalPort runtime userIndex Key.portProxy 1080

def portLocalDns := getLocalPort runtime userIndex Key.portLocalDns 5450

def portTransproxy := getLocalPort runtime userIndex Key.portTransproxy 8200

end DataStore

/-! ## What a store can hold -/

inductive LocalPort where
  | proxy
  | localDns
  | transproxy
  deriving DecidableEq

namespace LocalPort

def key : LocalPort → String
  | .proxy => Key.portProxy
  | .localDns => Key.portLocalDns
  | .transproxy => Key.portTransproxy

def default : LocalPort → Int
  | .proxy => 1080
  | .localDns => 5450
  | .transproxy => 8200

def read (runtime : EditRuntime) (userIndex : Int) :
    LocalPort → Store → Except KeyValuePair.ReadError (Int × Store)
  | .proxy => DataStore.portProxy runtime userIndex
  | .localDns => DataStore.portLocalDns runtime userIndex
  | .transproxy => DataStore.portTransproxy runtime userIndex

theorem read_eq (runtime : EditRuntime) (userIndex : Int) (port : LocalPort) :
    port.read runtime userIndex =
      DataStore.getLocalPort runtime userIndex port.key port.default := by
  cases port <;> rfl

end LocalPort

inductive Content where
  | absent
  | uninitialized
  | boolean (value : Bool)
  | float (value : BitVec 32)
  | int (value : BitVec 32)
  | long (value : BitVec 64)
  | string (value : JavaString)
  | stringSet (value : List JavaString)

namespace Content

def pair (key : String) : Content → Option KeyValuePair
  | .absent => none
  | .uninitialized => some { key := key }
  | .boolean value => some (KeyValuePair.putBoolean { key := key } value)
  | .float value => some (KeyValuePair.putFloat { key := key } value)
  | .int value => some (KeyValuePair.putInt { key := key } value)
  | .long value => some (KeyValuePair.putLong { key := key } value)
  | .string value => some (KeyValuePair.putString { key := key } value)
  | .stringSet value => some (KeyValuePair.putStringSet { key := key } value)

def number : Content → Option Int
  | .int value => some value.toInt
  | .long value => some (value.setWidth 32).toInt
  | _ => none

def text : Content → Option String
  | .string value => some value.toString
  | _ => none

end Content

def IsPort (value : Int) : Prop := 1025 ≤ value ∧ value ≤ 65535

instance (value : Int) : Decidable (IsPort value) := inferInstanceAs (Decidable (_ ∧ _))

def ReadsTwice (runtime : EditRuntime) (userIndex : Int) (port : LocalPort) (store : Store) :
    Prop :=
  ∃ value first second, port.read runtime userIndex store = .ok (value, first) ∧
    port.read runtime userIndex first = .ok (value, second) ∧ IsPort value

/-- A number is a port; without a number, the text or else the default is one. -/
def Content.Fine (runtime : EditRuntime) (default : Int) (content : Content) : Prop :=
  match content.number with
  | some value => IsPort value
  | none =>
      (∃ text value, content.text = some text ∧
        Decimal.parseInt runtime.digit text.toList = some value ∧ IsPort value) ∨
      1025 ≤ default

/-! ## Reads -/

section

variable {store : Store} {key : String} {content : Content}

theorem get_putString (store : Store) (key text : String) :
    LinkedMap.get key (store.putString key (some text)) =
      (Content.string (JavaString.ofString text)).pair key :=
  LinkedMap.get_assign_self key _ store

theorem getInt_of_content (stored : LinkedMap.get key store = content.pair key) :
    store.getInt key = .ok content.number := by
  rw [Store.getInt, stored]
  cases content with
  | int value =>
      have same : (value.signExtend 64).setWidth 32 = value := by
        apply BitVec.eq_of_getLsbD_eq
        intro index bound
        have inside : index < 64 := by omega
        simp only [BitVec.getLsbD_setWidth, BitVec.getLsbD_signExtend, bound, inside, decide_true,
          Bool.true_and, if_true]
      dsimp only [Content.pair, Content.number]
      rw [KeyValuePair.long_putInt]
      exact congrArg (fun bits : BitVec 32 => Except.ok (some bits.toInt)) same
  | long value =>
      dsimp only [Content.pair, Content.number]
      rw [KeyValuePair.long_putLong]
      rfl
  | _ => rfl

theorem getString_of_content (malformed : KeyValuePair.Malformed)
    (stored : LinkedMap.get key store = content.pair key) :
    store.getString key malformed = content.text := by
  rw [Store.getString, stored]
  cases content with
  | string value =>
      dsimp only [Content.pair, Content.text]
      rw [Option.bind_some, KeyValuePair.string_putString, Option.map_some]
  | _ => rfl

end

section

variable {runtime : EditRuntime} {userIndex : Int} {port : LocalPort} {store : Store}
  {content : Content}

/-- A number is returned as it is. -/
theorem read_of_number {value : Int} (stored : LinkedMap.get port.key store = content.pair port.key)
    (number : content.number = some value) :
    port.read runtime userIndex store =
      .ok (value, store.putString port.key (some (toString value))) := by
  rw [LocalPort.read_eq, DataStore.getLocalPort, getInt_of_content stored, number]

/-- Without a number the store stays as it is. -/
theorem read_of_no_number (stored : LinkedMap.get port.key store = content.pair port.key)
    (none : content.number = none) :
    port.read runtime userIndex store =
      .ok (parsePort runtime.digit content.text ((port.default + userIndex).bmod (2 ^ 32)) 1025,
        store) := by
  rw [LocalPort.read_eq, DataStore.getLocalPort, getInt_of_content stored, none,
    getString_of_content runtime.malformed stored]

theorem isPort_parsePort {text : Option String} {default : Int} (top : default ≤ 65535) :
    IsPort (parsePort runtime.digit text default 1025) ↔
      (∃ string value, text = some string ∧
        Decimal.parseInt runtime.digit string.toList = some value ∧ IsPort value) ∨
      1025 ≤ default := by
  cases parsed : text.bind (fun text => Decimal.parseInt runtime.digit text.toList) with
  | none =>
      have fallback : parsePort runtime.digit text default 1025 = default := by
        rw [parsePort, parsed]
        simp
      rw [fallback]
      constructor
      · exact fun isPort => Or.inr isPort.1
      · rintro (⟨string, value, rfl, found, _⟩ | low)
        · rw [Option.bind_some, found] at parsed
          cases parsed
        · exact ⟨low, top⟩
  | some number =>
      obtain ⟨string, same, found⟩ := Option.bind_eq_some_iff.mp parsed
      have value : parsePort runtime.digit text default 1025 =
          if number < 1025 ∨ number > 65535 then default else number := by
        rw [parsePort, parsed]
        rfl
      rw [value]
      split
      next refused =>
        constructor
        · exact fun isPort => Or.inr isPort.1
        · rintro (⟨other, value, sameText, read, isPort⟩ | low)
          · rw [same] at sameText
            cases sameText
            rw [found] at read
            cases read
            obtain ⟨low, high⟩ := isPort
            omega
          · exact ⟨low, top⟩
      next accepted =>
        have isPort : IsPort number := by
          unfold IsPort
          omega
        exact ⟨fun _ => Or.inl ⟨string, number, same, found, isPort⟩, fun _ => isPort⟩

/-- A port is parsed from its digits. -/
theorem parsePort_toString (ascii : Decimal.ReadsAscii runtime.digit) {value : Int}
    (isPort : IsPort value) (default : Int) :
    parsePort runtime.digit (some (toString value)) default 1025 = value := by
  obtain ⟨low, high⟩ := isPort
  obtain ⟨number, rfl, written⟩ := Decimal.exists_toDigits (show 0 ≤ value by omega)
  simp only [parsePort, Option.bind_some, written,
    Decimal.parseInt_toDigits ascii (show number < 2 ^ 31 by omega), Option.getD_some]
  exact if_neg (by omega)

theorem fits_toString {value : Int} (isPort : IsPort value) : JavaString.Fits (toString value) := by
  obtain ⟨low, high⟩ := isPort
  obtain ⟨number, rfl, written⟩ := Decimal.exists_toDigits (show 0 ≤ value by omega)
  have short : (Nat.toDigits 10 number).length ≤ 5 :=
    (Nat.length_toDigits_le_iff (by decide) (by decide)).mpr (by omega)
  have units := Text.length_utf16_le_twice (Nat.toDigits 10 number)
  rw [JavaString.Fits, written]
  omega

/-- After a number that is a port, the text of it is read. -/
theorem readsTwice_of_number (ascii : Decimal.ReadsAscii runtime.digit) {value : Int}
    (stored : LinkedMap.get port.key store = content.pair port.key)
    (number : content.number = some value) (isPort : IsPort value) :
    ReadsTwice runtime userIndex port store := by
  let migrated := store.putString port.key (some (toString value))
  have written : LinkedMap.get port.key migrated =
      (Content.string (JavaString.ofString (toString value))).pair port.key :=
    get_putString store port.key (toString value)
  have text : (Content.string (JavaString.ofString (toString value))).text =
      some (toString value) :=
    congrArg some (JavaString.toString_ofString (fits_toString isPort))
  refine ⟨value, migrated, migrated, read_of_number stored number, ?_, isPort⟩
  rw [read_of_no_number written rfl, text, parsePort_toString ascii isPort]

end

/-- **Two reads agree exactly if what is stored is a port.** A number of an older version must
be one; without it the text or the default must. -/
theorem readsTwice_iff (runtime : EditRuntime) (ascii : Decimal.ReadsAscii runtime.digit)
    (userIndex : Int) (port : LocalPort) (low : -2 ^ 31 ≤ userIndex)
    (top : port.default + userIndex ≤ 65535) (store : Store) (content : Content)
    (stored : LinkedMap.get port.key store = content.pair port.key) :
    ReadsTwice runtime userIndex port store ↔
      content.Fine runtime (port.default + userIndex) := by
  rw [Content.Fine]
  cases number : content.number with
  | some value =>
      constructor
      · rintro ⟨first, migrated, _, read, _, isPort⟩
        rw [read_of_number stored number] at read
        cases read
        exact isPort
      · exact readsTwice_of_number ascii stored number
  | none =>
      have default : (port.default + userIndex).bmod (2 ^ 32) = port.default + userIndex := by
        have positive : 0 ≤ port.default := by cases port <;> decide
        apply Int.bmod_eq_of_le_mul_two <;> omega
      have read := @read_of_no_number runtime userIndex port store content stored number
      rw [default] at read
      dsimp only
      rw [← isPort_parsePort top]
      constructor
      · rintro ⟨value, _, _, first, _, isPort⟩
        rw [read] at first
        cases first
        exact isPort
      · exact fun isPort => ⟨_, store, store, read, read, isPort⟩

theorem readsAscii_plain : Decimal.ReadsAscii Profile.plainEditRuntime.digit := by
  unfold Decimal.ReadsAscii
  decide

/-- A number of an older version that is a port. -/
theorem readsTwice_number :
    ReadsTwice Profile.plainEditRuntime 0 .proxy
      [(Key.portProxy, KeyValuePair.putLong { key := Key.portProxy } 1090)] := by
  refine (readsTwice_iff Profile.plainEditRuntime readsAscii_plain 0 .proxy (by decide) (by decide)
    _ (.long 1090) rfl).mpr ?_
  change IsPort 1090
  decide

/-- The number 80 is read as it is, and then as the default. -/
theorem not_readsTwice_number :
    let store : Store := [(Key.portProxy, KeyValuePair.putInt { key := Key.portProxy } 80)]
    ∃ first second,
      DataStore.portProxy Profile.plainEditRuntime 0 store = .ok (80, first) ∧
      DataStore.portProxy Profile.plainEditRuntime 0 first = .ok (1080, second) ∧
      ¬ ReadsTwice Profile.plainEditRuntime 0 .proxy store := by
  intro store
  have read : LocalPort.read Profile.plainEditRuntime 0 .proxy store =
      .ok (80, store.putString Key.portProxy (some "80")) :=
    @read_of_number Profile.plainEditRuntime 0 .proxy store (.int 80) 80 rfl rfl
  have again : LocalPort.read Profile.plainEditRuntime 0 .proxy
      (store.putString Key.portProxy (some "80")) =
        .ok (1080, store.putString Key.portProxy (some "80")) :=
    @read_of_no_number Profile.plainEditRuntime 0 .proxy _
      (.string (JavaString.ofString "80")) rfl rfl
  refine ⟨_, _, read, again, ?_⟩
  rintro ⟨value, first, second, found, _, isPort⟩
  rw [read] at found
  cases found
  exact absurd isPort (by decide)

end AlienConnection.Preference
