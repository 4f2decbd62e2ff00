import AlienConnection.Bg.ProxyInstance
import AlienConnection.Library.Base64Text

/-!
# Keys of the native client

A password of an AEAD-2022 cipher is a chain of Base64 keys. It is read twice: the service looks
at the size of every key before it starts the native client, which then derives its own keys
from the same password. The two readings differ in the sizes that they allow, in the characters
that they skip and in the ciphers that take a chain.
-/

namespace AlienConnection.Bg

open Library Database

/-! ## The native client -/

inductive Aead2022 where
  | blake3Aes128Gcm
  | blake3Aes256Gcm
  | blake3ChaCha20Poly1305
  deriving DecidableEq, Repr

namespace Aead2022

def name : Aead2022 → String
  | blake3Aes128Gcm => "2022-blake3-aes-128-gcm"
  | blake3Aes256Gcm => "2022-blake3-aes-256-gcm"
  | blake3ChaCha20Poly1305 => "2022-blake3-chacha20-poly1305"

def keyLen : Aead2022 → Nat
  | blake3Aes128Gcm => 16
  | blake3Aes256Gcm => 32
  | blake3ChaCha20Poly1305 => 32

end Aead2022

/-- Any other cipher derives a key of its length from the bytes of the password. -/
inductive CipherKind where
  | aead2022 (kind : Aead2022)
  | other (keyLen : Nat)
  deriving DecidableEq, Repr

inductive KeyPanic where
  | noUserKey
  | wrongLength (kind : Aead2022) (password : Text) (size : Nat)
  | notBase64 (kind : Aead2022) (password : Text)
  | identityNotBase64 (identityKey : Text)
  deriving DecidableEq, Repr

/-- The variables of the process, and the key derivation of the older ciphers. -/
structure NativeRuntime where
  environment : Text → Option Text
  opensslBytesToKey : Bytes → Nat → Bytes

structure ServerKeys where
  password : Text
  encKey : Bytes
  identityKeys : List Bytes
  deriving DecidableEq, Repr

namespace NativeRuntime

variable (runtime : NativeRuntime)

def makeDerivedKey (method : CipherKind) (password : Text) : Except KeyPanic Bytes :=
  match method with
  | .aead2022 kind =>
      match Base64.decodeStrict password with
      | some key =>
          if key.length ≠ kind.keyLen then .error (.wrongLength kind password key.length)
          else .ok key
      | none => .error (.notBase64 kind password)
  | .other keyLen => .ok (runtime.opensslBytesToKey (Text.utf8 password) keyLen)

/-- A chain of keys is read for these ciphers only. -/
def methodSupportEih : CipherKind → Bool
  | .aead2022 .blake3Aes128Gcm => true
  | .aead2022 .blake3Aes256Gcm => true
  | .aead2022 .blake3ChaCha20Poly1305 => false
  | .other _ => false

/-- The loop over the keys in front of the user's own. -/
def readIdentityKeys : List Text → Except KeyPanic (List Bytes)
  | [] => .ok []
  | identityKey :: rest =>
      match Base64.decodeStrict identityKey, readIdentityKeys rest with
      | none, _ => .error (.identityNotBase64 identityKey)
      | some _, .error panic => .error panic
      | some key, .ok keys => .ok (key :: keys)

def passwordToKeys (method : CipherKind) (password : Text) : Except KeyPanic ServerKeys :=
  if methodSupportEih method then
    match (password.splitOn ':').reverse with
    | [] => .error .noUserKey
    | userKey :: identityKeys => do
        let encKey ← runtime.makeDerivedKey method userKey
        let keys ← readIdentityKeys identityKeys
        .ok { password := userKey, encKey := encKey, identityKeys := keys.reverse }
  else do
    let encKey ← runtime.makeDerivedKey method password
    .ok { password := password, encKey := encKey, identityKeys := [] }

/-- A value in `$` and braces is the name of a variable. It stands for itself when there is no
such variable. -/
def readVariableFieldValue : Text → Text
  | '$' :: '{' :: leftOver =>
      if leftOver.getLast? = some '}' then
        (runtime.environment leftOver.dropLast).getD ('$' :: '{' :: leftOver)
      else '$' :: '{' :: leftOver
  | value => value

def serverKeys (method : CipherKind) (password : Text) : Except KeyPanic ServerKeys :=
  runtime.passwordToKeys method (runtime.readVariableFieldValue password)

end NativeRuntime

/-! ## Parts of a password -/

def lastPart (password : Text) : Text := (password.splitOn ':').getLast (List.splitOn_ne_nil _ _)

theorem lastPart_mem (password : Text) : lastPart password ∈ password.splitOn ':' :=
  List.getLast_mem _

theorem splitOn_eq_dropLast (password : Text) :
    (password.splitOn ':').dropLast ++ [lastPart password] = password.splitOn ':' :=
  List.dropLast_append_getLast _

theorem lastPart_suffix (password : Text) : lastPart password <:+ password := by
  have joined : List.intercalate [':'] (password.splitOn ':') = password :=
    List.intercalate_splitOn ':'
  have whole := Text.suffix_intercalate [':'] (password.splitOn ':').dropLast (lastPart password)
  rwa [splitOn_eq_dropLast, joined] at whole

/-- A password that names a variable ends in a character that no key contains. -/
theorem NativeRuntime.readVariableFieldValue_eq_self (runtime : NativeRuntime) {password : Text}
    (plain : Base64.Plain (lastPart password)) (nonempty : lastPart password ≠ []) :
    runtime.readVariableFieldValue password = password := by
  have braceless : password.getLast? ≠ some '}' := by
    intro ends
    obtain ⟨front, whole⟩ := lastPart_suffix password
    rw [← whole, List.getLast?_append_of_ne_nil _ nonempty] at ends
    have member : '}' ∈ lastPart password := List.mem_of_getLast? ends
    rcases plain.alphabet '}' member with digit | pad
    · cases digit
    · cases pad
  unfold NativeRuntime.readVariableFieldValue
  split
  next leftOver =>
    have other : leftOver.getLast? ≠ some '}' := by
      intro ends
      cases leftOver with
      | nil => cases ends
      | cons char rest => exact braceless (by simpa [List.getLast?_cons_cons] using ends)
    exact if_neg other
  next => rfl

/-! ## When the native client starts -/

def KeyOf (kind : Aead2022) (text : Text) : Prop :=
  ∃ key, Base64.decodeStrict text = some key ∧ key.length = kind.keyLen

namespace NativeRuntime

variable (runtime : NativeRuntime)

theorem makeDerivedKey_ok_iff (kind : Aead2022) (password : Text) :
    (∃ key, runtime.makeDerivedKey (.aead2022 kind) password = .ok key) ↔
      KeyOf kind password := by
  unfold makeDerivedKey KeyOf
  cases decoded : Base64.decodeStrict password with
  | none => simp
  | some key => by_cases fits : key.length = kind.keyLen <;> simp [fits]

theorem readIdentityKeys_ok_iff (parts : List Text) :
    (∃ keys, readIdentityKeys parts = .ok keys) ↔
      ∀ part ∈ parts, ∃ key, Base64.decodeStrict part = some key := by
  induction parts with
  | nil => simp [readIdentityKeys]
  | cons part rest ih =>
      rw [List.forall_mem_cons, ← ih, readIdentityKeys]
      cases decoded : Base64.decodeStrict part with
      | none => simp
      | some key =>
          cases later : readIdentityKeys rest with
          | error panic => simp
          | ok keys => simp

theorem passwordToKeys_chain {kind : Aead2022} (chain : methodSupportEih (.aead2022 kind) = true)
    (password : Text) :
    (∃ keys, runtime.passwordToKeys (.aead2022 kind) password = .ok keys) ↔
      KeyOf kind (lastPart password) ∧
        ∀ part ∈ (password.splitOn ':').dropLast, ∃ key, Base64.decodeStrict part = some key := by
  have turned : (password.splitOn ':').reverse =
      lastPart password :: (password.splitOn ':').dropLast.reverse := by
    conv_lhs => rw [← splitOn_eq_dropLast]
    rw [List.reverse_append]
    rfl
  have others := readIdentityKeys_ok_iff (password.splitOn ':').dropLast.reverse
  simp only [List.mem_reverse] at others
  rw [← runtime.makeDerivedKey_ok_iff, ← others, passwordToKeys, if_pos chain, turned]
  cases derived : runtime.makeDerivedKey (.aead2022 kind) (lastPart password) with
  | error panic => simp [bind, Except.bind, derived]
  | ok key =>
      cases read : readIdentityKeys (password.splitOn ':').dropLast.reverse with
      | error panic => simp [bind, Except.bind, derived, read]
      | ok keys => simp [bind, Except.bind, derived, read]

theorem passwordToKeys_whole {kind : Aead2022}
    (single : methodSupportEih (.aead2022 kind) = false) (password : Text) :
    (∃ keys, runtime.passwordToKeys (.aead2022 kind) password = .ok keys) ↔
      KeyOf kind password := by
  rw [← runtime.makeDerivedKey_ok_iff, passwordToKeys, if_neg (by simp [single])]
  cases runtime.makeDerivedKey (.aead2022 kind) password with
  | error panic => simp [bind, Except.bind]
  | ok key => simp [bind, Except.bind]

end NativeRuntime

/-! ## What the service accepts -/

def decodedSize (text : String) : Option Nat :=
  (Base64.decodeLenient text.toList).map List.length

def Accepted (part : Text) : Prop :=
  ∃ key, Base64.decodeLenient part = some key ∧ (key.length = 16 ∨ key.length = 32)

theorem checkKeys_ok {parts : List String} (checked : ProxyInstance.checkKeys decodedSize parts =
    .ok ()) : ∀ part ∈ parts, Accepted part.toList := by
  induction parts with
  | nil => simp
  | cons part rest ih =>
      simp only [ProxyInstance.checkKeys, decodedSize] at checked
      cases decoded : Base64.decodeLenient part.toList with
      | none => simp [decoded] at checked
      | some key =>
          simp only [decoded, Option.map_some] at checked
          split at checked
          next size =>
            rw [List.forall_mem_cons]
            exact ⟨⟨key, decoded, size⟩, ih checked⟩
          next => cases checked

theorem Aead2022.name_mem (kind : Aead2022) : kind.name ∈ ProxyInstance.keyedMethods := by
  cases kind <;> decide

theorem Aead2022.name_not_mem (kind : Aead2022) :
    kind.name ∉ ProxyInstance.deprecatedMethods := by
  cases kind <;> decide

theorem init_ok {kind : Aead2022} {profile : Profile} {route : String} {proxy : ProxyInstance}
    (method : profile.method = kind.name)
    (constructed : ProxyInstance.init decodedSize profile route = .ok proxy) :
    ∀ part ∈ profile.password.toList.splitOn ':', Accepted part := by
  intro part member
  rw [ProxyInstance.init] at constructed
  split at constructed
  next => cases constructed
  next =>
    rw [if_neg (method ▸ kind.name_not_mem), if_pos (method ▸ kind.name_mem)] at constructed
    split at constructed
    next => cases constructed
    next checked =>
      have accepted := checkKeys_ok checked (String.ofList part) (List.mem_map_of_mem member)
      rwa [String.toList_ofList] at accepted

/-! ## The two readings compared -/

/-- The user's key has the length of the cipher, and the native client does not abort. -/
structure Usable (runtime : NativeRuntime) (kind : Aead2022) (password : Text) : Prop where
  userKey : KeyOf kind (lastPart password)
  starts : ∃ keys, runtime.serverKeys (.aead2022 kind) password = .ok keys

def Aead2022.keyDigits : Aead2022 → Nat
  | blake3Aes128Gcm => 22
  | blake3Aes256Gcm => 43
  | blake3ChaCha20Poly1305 => 43

/-- Every part of the password is plain Base64, the last one has the digits of a key of the
cipher, and there is one part only when the cipher takes no chain. -/
structure WellKeyed (kind : Aead2022) (password : Text) : Prop where
  plain : ∀ part ∈ password.splitOn ':', Base64.Plain part
  sized : (Base64.digits (lastPart password)).length = kind.keyDigits
  single : kind = .blake3ChaCha20Poly1305 → ':' ∉ password

theorem Accepted.decodeStrict_iff {part : Text} (accepted : Accepted part) :
    (∃ key, Base64.decodeStrict part = some key) ↔ Base64.Plain part := by
  obtain ⟨key, decoded, _⟩ := accepted
  constructor
  · rintro ⟨read, strict⟩
    exact Base64.plain_of_decodeStrict strict
  · intro plain
    exact ⟨key, (Base64.decodeStrict_iff_plain decoded key).mpr ⟨rfl, plain⟩⟩

theorem Accepted.keyOf_iff {part : Text} (accepted : Accepted part) (kind : Aead2022) :
    KeyOf kind part ↔
      Base64.Plain part ∧ (Base64.digits part).length = kind.keyDigits := by
  obtain ⟨key, decoded, _⟩ := accepted
  obtain ⟨_, _, _, whole⟩ := Base64.decodeLenient_eq_some decoded
  have size := Base64.length_of_decode whole
  have fits : key.length = kind.keyLen ↔ (Base64.digits part).length = kind.keyDigits := by
    rw [size]
    cases kind <;> simp only [Aead2022.keyLen, Aead2022.keyDigits] <;> omega
  rw [KeyOf, ← fits]
  constructor
  · rintro ⟨read, strict, length⟩
    obtain ⟨rfl, plain⟩ := (Base64.decodeStrict_iff_plain decoded read).mp strict
    exact ⟨plain, length⟩
  · rintro ⟨plain, length⟩
    exact ⟨key, (Base64.decodeStrict_iff_plain decoded key).mpr ⟨rfl, plain⟩, length⟩

theorem Aead2022.keyDigits_pos (kind : Aead2022) : 0 < kind.keyDigits := by
  cases kind <;> decide

theorem lastPart_ne_nil {kind : Aead2022} {password : Text}
    (sized : (Base64.digits (lastPart password)).length = kind.keyDigits) :
    lastPart password ≠ [] := by
  intro empty
  rw [empty] at sized
  exact Nat.ne_of_lt kind.keyDigits_pos sized

theorem not_colon_of_plain {text : Text} (plain : Base64.Plain text) : ':' ∉ text := by
  intro member
  rcases plain.alphabet ':' member with digit | pad
  · cases digit
  · cases pad

theorem lastPart_of_single {password : Text} (single : ':' ∉ password) :
    lastPart password = password := by
  have parts := List.splitOn_eq_singleton single
  simp only [lastPart, parts, List.getLast_singleton]

section Comparison

variable {runtime : NativeRuntime} {kind : Aead2022} {password : Text}

theorem wellKeyed_of_usable (accepted : ∀ part ∈ password.splitOn ':', Accepted part)
    (usable : Usable runtime kind password) : WellKeyed kind password := by
  obtain ⟨plainLast, sized⟩ :=
    ((accepted _ (lastPart_mem password)).keyOf_iff kind).mp usable.userKey
  have starts := usable.starts
  rw [NativeRuntime.serverKeys,
    runtime.readVariableFieldValue_eq_self plainLast (lastPart_ne_nil sized)] at starts
  cases chain : NativeRuntime.methodSupportEih (.aead2022 kind) with
  | true =>
      obtain ⟨_, others⟩ := (runtime.passwordToKeys_chain chain password).mp starts
      refine ⟨fun part member => ?_, sized, ?_⟩
      · rw [← splitOn_eq_dropLast, List.mem_append, List.mem_singleton] at member
        rcases member with front | rfl
        · obtain ⟨_, strict⟩ := others part front
          exact Base64.plain_of_decodeStrict strict
        · exact plainLast
      · rintro rfl
        cases chain
  | false =>
      obtain ⟨_, strict, _⟩ := (runtime.passwordToKeys_whole chain password).mp starts
      have plain := Base64.plain_of_decodeStrict strict
      have single := not_colon_of_plain plain
      refine ⟨fun part member => ?_, sized, fun _ => single⟩
      rw [List.splitOn_eq_singleton single, List.mem_singleton] at member
      exact member ▸ plain

theorem usable_of_wellKeyed (runtime : NativeRuntime)
    (accepted : ∀ part ∈ password.splitOn ':', Accepted part)
    (wellKeyed : WellKeyed kind password) : Usable runtime kind password := by
  obtain ⟨plain, sized, single⟩ := wellKeyed
  have plainLast := plain _ (lastPart_mem password)
  have userKey := ((accepted _ (lastPart_mem password)).keyOf_iff kind).mpr ⟨plainLast, sized⟩
  refine ⟨userKey, ?_⟩
  rw [NativeRuntime.serverKeys,
    runtime.readVariableFieldValue_eq_self plainLast (lastPart_ne_nil sized)]
  cases chain : NativeRuntime.methodSupportEih (.aead2022 kind) with
  | true =>
      refine (runtime.passwordToKeys_chain chain password).mpr ⟨userKey, fun part front => ?_⟩
      have member := List.mem_of_mem_dropLast front
      exact (accepted part member).decodeStrict_iff.mpr (plain part member)
  | false =>
      have last : kind = .blake3ChaCha20Poly1305 := by
        cases kind with
        | blake3Aes128Gcm => cases chain
        | blake3Aes256Gcm => cases chain
        | blake3ChaCha20Poly1305 => rfl
      rw [lastPart_of_single (single last)] at userKey
      exact (runtime.passwordToKeys_whole chain password).mpr userKey

end Comparison

/-- **Acceptance and use of a key.** Of the passwords that the service accepts, the native client
can use exactly the well keyed ones. -/
theorem usable_iff_wellKeyed (runtime : NativeRuntime) (kind : Aead2022) (profile : Profile)
    (route : String) (proxy : ProxyInstance) (method : profile.method = kind.name)
    (constructed : ProxyInstance.init decodedSize profile route = .ok proxy) :
    Usable runtime kind profile.password.toList ↔ WellKeyed kind profile.password.toList := by
  have accepted := init_ok method constructed
  exact ⟨wellKeyed_of_usable accepted, usable_of_wellKeyed runtime accepted⟩

def plainNative : NativeRuntime where
  environment := fun _ => none
  opensslBytesToKey := fun _ keyLen => List.replicate keyLen 0

/-- A cipher with 32 bytes of key, and a password of 32 bytes. -/
def longKeyed : Profile :=
  { method := "2022-blake3-aes-256-gcm"
    password := "AAAAAAAAAAAAAAAAAAAAAAAAAAAAAAAAAAAAAAAAAAA=" }

def shortKeyed : Profile :=
  { method := "2022-blake3-aes-256-gcm"
    password := "AAAAAAAAAAAAAAAAAAAAAA==" }

theorem usable_longKeyed :
    ProxyInstance.init decodedSize longKeyed "all" = .ok { profile := longKeyed, route := "all" } ∧
      Usable plainNative .blake3Aes256Gcm longKeyed.password.toList := by
  have constructed : ProxyInstance.init decodedSize longKeyed "all" =
      .ok { profile := longKeyed, route := "all" } := by decide +kernel
  refine ⟨constructed, (usable_iff_wellKeyed plainNative .blake3Aes256Gcm longKeyed "all" _ rfl
    constructed).mpr ⟨?_, by decide +kernel, nofun⟩⟩
  have parts : longKeyed.password.toList.splitOn ':' = [longKeyed.password.toList] := by
    decide +kernel
  rw [parts, List.forall_mem_singleton]
  refine ⟨?_, by decide +kernel⟩
  have letters : longKeyed.password.toList.all
      (fun char => Base64.isDigit .standard char || char == '=') = true := by decide +kernel
  intro char member
  simpa using List.all_eq_true.mp letters char member

/-- The service accepts the short key, and the native client aborts on it. -/
theorem not_usable_shortKeyed :
    ProxyInstance.init decodedSize shortKeyed "all" =
        .ok { profile := shortKeyed, route := "all" } ∧
      plainNative.serverKeys (.aead2022 .blake3Aes256Gcm) shortKeyed.password.toList =
        .error (.wrongLength .blake3Aes256Gcm shortKeyed.password.toList 16) ∧
      ¬ Usable plainNative .blake3Aes256Gcm shortKeyed.password.toList := by
  have aborts : plainNative.serverKeys (.aead2022 .blake3Aes256Gcm) shortKeyed.password.toList =
      .error (.wrongLength .blake3Aes256Gcm shortKeyed.password.toList 16) := by decide +kernel
  refine ⟨by decide +kernel, aborts, fun usable => ?_⟩
  obtain ⟨keys, starts⟩ := usable.starts
  rw [aborts] at starts
  cases starts

end AlienConnection.Bg
