import AlienConnection.Library.Wire

/-!
# Addresses of the SOCKS5 protocol

`socks5.rs` writes the addresses that the native client tells its server. They are read from
a stream that is asked for exactly as many bytes as come next.
-/

namespace AlienConnection.Native

open AlienConnection.Library AlienConnection.Library.Reader

/-! ## Addresses -/

abbrev Ipv4Addr := BitVec 32
abbrev Ipv6Addr := BitVec 128

structure SocketAddrV4 where
  ip : Ipv4Addr
  port : UInt16
  deriving DecidableEq, Repr

structure SocketAddrV6 where
  ip : Ipv6Addr
  port : UInt16
  flowinfo : UInt32
  scopeId : UInt32
  deriving DecidableEq, Repr

inductive SocketAddr where
  | v4 (address : SocketAddrV4)
  | v6 (address : SocketAddrV6)
  deriving DecidableEq, Repr

inductive Address where
  | socketAddress (address : SocketAddr)
  | domainNameAddress (name : Text) (port : UInt16)
  deriving DecidableEq, Repr

namespace Socks5

def addrTypeIpv4 : UInt8 := 0x01
def addrTypeDomainName : UInt8 := 0x03
def addrTypeIpv6 : UInt8 := 0x04

inductive Error where
  | unexpectedEof
  | addressTypeNotSupported (code : UInt8)
  | addressDomainInvalidEncoding
  deriving DecidableEq, Repr

end Socks5

open Socks5

def readPort (bytes : Bytes) : UInt16 := UInt16.ofNat (Bytes.ofBigEndian bytes)

namespace Address

/-! ### Writing -/

def writeIpv4Address (address : SocketAddrV4) : Bytes :=
  addrTypeIpv4 :: Bytes.bigEndian 4 address.ip.toNat ++ Bytes.bigEndian 2 address.port.toNat

/-- The eight segments of the address, two bytes each, are its sixteen bytes. -/
def writeIpv6Address (address : SocketAddrV6) : Bytes :=
  addrTypeIpv6 :: Bytes.bigEndian 16 address.ip.toNat ++ Bytes.bigEndian 2 address.port.toNat

/-- The assertion on the length of the name stops the program if it fails. -/
def writeDomainNameAddress (name : Text) (port : UInt16) : Option Bytes :=
  if (Text.utf8 name).length ≤ 255 then
    some (addrTypeDomainName :: UInt8.ofNat (Text.utf8 name).length :: Text.utf8 name ++
      Bytes.bigEndian 2 port.toNat)
  else none

def writeToBuf : Address → Option Bytes
  | .socketAddress (.v4 address) => some (writeIpv4Address address)
  | .socketAddress (.v6 address) => some (writeIpv6Address address)
  | .domainNameAddress name port => writeDomainNameAddress name port

def serializedLen : Address → Nat
  | .socketAddress (.v4 _) => 1 + 4 + 2
  | .socketAddress (.v6 _) => 1 + 8 * 2 + 2
  | .domainNameAddress name _ => 1 + 1 + (Text.utf8 name).length + 2

def maxSerializedLen : Nat := 1 + 1 + 255 + 2

/-! ### Reading from a stream -/

def readIp (width : Nat) (make : BitVec (8 * width) → UInt16 → SocketAddr) :
    Reader Error Address := do
  let buf ← readExact .unexpectedEof (width + 2)
  pure (.socketAddress (make (BitVec.ofNat (8 * width) (Bytes.ofBigEndian (buf.take width)))
    (readPort (buf.drop width))))

def readIpv4 : Reader Error Address := readIp 4 fun ip port => .v4 ⟨ip, port⟩

/-- Eight segments and the port are read, all of two bytes. -/
def readIpv6 : Reader Error Address := readIp 16 fun ip port => .v6 ⟨ip, port, 0, 0⟩

def readDomainName : Reader Error Address := do
  let length := ((← readExact .unexpectedEof 1).headD 0).toNat
  let rawAddr ← readExact .unexpectedEof (length + 2)
  match Text.ofUtf8 (rawAddr.take length) with
  | some name => pure (.domainNameAddress name (readPort (rawAddr.drop length)))
  | none => throw .addressDomainInvalidEncoding

def readFrom : Reader Error Address := do
  let addrType := (← readExact .unexpectedEof 1).headD 0
  if addrType = addrTypeIpv4 then readIpv4
  else if addrType = addrTypeIpv6 then readIpv6
  else if addrType = addrTypeDomainName then readDomainName
  else throw (.addressTypeNotSupported addrType)

end Address

/-! ## Numbers of an address -/

theorem bigEndian_ofNat {width : Nat} {bytes : Bytes} (length : bytes.length = width) :
    Bytes.bigEndian width (BitVec.ofNat (8 * width) (Bytes.ofBigEndian bytes)).toNat = bytes := by
  subst length
  have small : Bytes.ofBigEndian bytes < 2 ^ (8 * bytes.length) := by
    rw [Nat.pow_mul]
    exact Bytes.ofBigEndian_lt bytes
  rw [BitVec.toNat_ofNat, Nat.mod_eq_of_lt small, Bytes.bigEndian_ofBigEndian]

theorem ofNat_bigEndian {width : Nat} (number : BitVec (8 * width)) :
    BitVec.ofNat (8 * width) (Bytes.ofBigEndian (Bytes.bigEndian width number.toNat)) = number := by
  have small : number.toNat < 256 ^ width := by
    have bound := number.isLt
    rw [Nat.pow_mul] at bound
    exact bound
  rw [Bytes.ofBigEndian_bigEndian small, BitVec.ofNat_toNat, BitVec.setWidth_eq]

theorem bigEndian_readPort {bytes : Bytes} (length : bytes.length = 2) :
    Bytes.bigEndian 2 (readPort bytes).toNat = bytes := by
  have small : Bytes.ofBigEndian bytes < 2 ^ 16 := by
    have bound := Bytes.ofBigEndian_lt bytes
    rw [length] at bound
    exact bound
  rw [readPort, UInt16.toNat_ofNat', Nat.mod_eq_of_lt small, ← length,
    Bytes.bigEndian_ofBigEndian]

theorem readPort_bigEndian (port : UInt16) : readPort (Bytes.bigEndian 2 port.toNat) = port := by
  rw [readPort, Bytes.ofBigEndian_bigEndian port.toNat_lt, UInt16.ofNat_toNat]

namespace Address

/-! ## What is read -/

/-- An address as it is told: without what a socket knows of an IPv6 address besides. -/
def plain : Address → Address
  | .socketAddress (.v6 address) => .socketAddress (.v6 ⟨address.ip, address.port, 0, 0⟩)
  | address => address

def body : Address → Bytes
  | .socketAddress (.v4 address) =>
      Bytes.bigEndian 4 address.ip.toNat ++ Bytes.bigEndian 2 address.port.toNat
  | .socketAddress (.v6 address) =>
      Bytes.bigEndian 16 address.ip.toNat ++ Bytes.bigEndian 2 address.port.toNat
  | .domainNameAddress name port =>
      UInt8.ofNat (Text.utf8 name).length :: Text.utf8 name ++ Bytes.bigEndian 2 port.toNat

theorem readIp_eq_ok_iff {width : Nat} {make : BitVec (8 * width) → UInt16 → SocketAddr}
    {bytes rest : Bytes} {address : Address} :
    readIp width make bytes = .ok (address, rest) ↔
      ∃ ip port, address = .socketAddress (make ip port) ∧
        bytes = (Bytes.bigEndian width ip.toNat ++ Bytes.bigEndian 2 port.toNat) ++ rest := by
  unfold readIp
  simp only [bind_eq_ok_iff, readExact_eq_ok_iff, pure_eq_ok_iff]
  constructor
  · rintro ⟨buf, middle, ⟨rfl, length⟩, rfl, rfl⟩
    refine ⟨_, _, rfl, ?_⟩
    rw [bigEndian_ofNat (by simp [length]), bigEndian_readPort (by simp [length]),
      List.take_append_drop]
  · rintro ⟨ip, port, rfl, rfl⟩
    refine ⟨_, rest, ⟨rfl, by simp⟩, ?_, rfl⟩
    rw [List.take_left' (by simp), List.drop_left' (by simp), readPort_bigEndian, ofNat_bigEndian]

theorem readIpv4_eq_ok_iff {bytes rest : Bytes} {address : Address} :
    readIpv4 bytes = .ok (address, rest) ↔
      ∃ socket, address = .socketAddress (.v4 socket) ∧ bytes = body address ++ rest := by
  rw [readIpv4, readIp_eq_ok_iff]
  constructor
  · rintro ⟨ip, port, rfl, split⟩
    exact ⟨⟨ip, port⟩, rfl, split⟩
  · rintro ⟨⟨ip, port⟩, rfl, split⟩
    exact ⟨ip, port, rfl, split⟩

theorem readIpv6_eq_ok_iff {bytes rest : Bytes} {address : Address} :
    readIpv6 bytes = .ok (address, rest) ↔
      ∃ ip port, address = .socketAddress (.v6 ⟨ip, port, 0, 0⟩) ∧
        bytes = body address ++ rest := by
  rw [readIpv6, readIp_eq_ok_iff]
  constructor
  · rintro ⟨ip, port, rfl, split⟩
    exact ⟨ip, port, rfl, split⟩
  · rintro ⟨ip, port, rfl, split⟩
    exact ⟨ip, port, rfl, split⟩

theorem ofNat_toNat_length {byte : UInt8} {name : Text}
    (length : (Text.utf8 name).length = byte.toNat) :
    UInt8.ofNat (Text.utf8 name).length = byte ∧ (Text.utf8 name).length ≤ 255 := by
  rw [length, UInt8.ofNat_toNat]
  exact ⟨rfl, Nat.le_of_lt_succ byte.toNat_lt⟩

theorem readDomainName_eq_ok_iff {bytes rest : Bytes} {address : Address} :
    readDomainName bytes = .ok (address, rest) ↔
      ∃ name port, address = .domainNameAddress name port ∧ (Text.utf8 name).length ≤ 255 ∧
        bytes = body address ++ rest := by
  unfold readDomainName
  simp only [bind_eq_ok_iff, readExact_eq_ok_iff]
  constructor
  · rintro ⟨first, middle, ⟨rfl, one⟩, raw, behind, ⟨rfl, length⟩, parsed⟩
    obtain ⟨byte, rfl⟩ := List.length_eq_one_iff.mp one
    rw [List.headD_cons] at length parsed
    cases decoded : Text.ofUtf8 (raw.take byte.toNat) with
    | none =>
        rw [decoded] at parsed
        exact absurd parsed throw_ne_ok
    | some name =>
        rw [decoded] at parsed
        obtain ⟨rfl, rfl⟩ := pure_eq_ok_iff.mp parsed
        have encoded := Text.utf8_of_ofUtf8 decoded
        have size : (Text.utf8 name).length = byte.toNat := by
          rw [encoded, List.length_take]
          omega
        obtain ⟨prefixed, short⟩ := ofNat_toNat_length size
        refine ⟨name, _, rfl, short, ?_⟩
        have port := @bigEndian_readPort (raw.drop byte.toNat) (by simp [length])
        change byte :: (raw ++ behind) = _
        rw [body, prefixed, port, encoded, List.cons_append, List.cons_append,
          List.take_append_drop]
  · rintro ⟨name, port, rfl, short, rfl⟩
    have size : (UInt8.ofNat (Text.utf8 name).length).toNat = (Text.utf8 name).length := by
      rw [UInt8.toNat_ofNat']
      omega
    refine ⟨[UInt8.ofNat (Text.utf8 name).length], _, ⟨rfl, rfl⟩,
      Text.utf8 name ++ Bytes.bigEndian 2 port.toNat, rest, ⟨rfl, ?_⟩, ?_⟩
    · rw [List.headD_cons, size, List.length_append, Bytes.length_bigEndian]
    · rw [List.headD_cons, size, List.take_left' rfl, List.drop_left' rfl, Text.ofUtf8_utf8,
        readPort_bigEndian]
      rfl

def kind : Address → UInt8
  | .socketAddress (.v4 _) => addrTypeIpv4
  | .socketAddress (.v6 _) => addrTypeIpv6
  | .domainNameAddress _ _ => addrTypeDomainName

theorem writeToBuf_eq_some_iff {address : Address} {written : Bytes} :
    writeToBuf address = some written ↔
      (∀ name port, address = .domainNameAddress name port → (Text.utf8 name).length ≤ 255) ∧
        written = kind address :: body address := by
  match address with
  | .socketAddress (.v4 address) =>
      simp [writeToBuf, writeIpv4Address, kind, body, eq_comm]
  | .socketAddress (.v6 address) =>
      simp [writeToBuf, writeIpv6Address, kind, body, eq_comm]
  | .domainNameAddress name port =>
      simp [writeToBuf, writeDomainNameAddress, kind, body, eq_comm]

/-- A written address takes as many bytes as were reserved for it. -/
theorem length_writeToBuf {address : Address} {written : Bytes}
    (wrote : writeToBuf address = some written) :
    written.length = serializedLen address ∧ serializedLen address ≤ maxSerializedLen := by
  obtain ⟨short, rfl⟩ := writeToBuf_eq_some_iff.mp wrote
  match address with
  | .socketAddress (.v4 address) => simp [body, serializedLen, maxSerializedLen]
  | .socketAddress (.v6 address) => simp [body, serializedLen, maxSerializedLen]
  | .domainNameAddress name port =>
      have := short name port rfl
      simp [body, serializedLen, maxSerializedLen]
      omega

/-- What the bytes behind each type of address are read to. -/
theorem plain_body_iff {address : Address} {tag : UInt8} {bytes rest : Bytes} :
    (tag = addrTypeIpv4 ∧ (∃ socket, address = .socketAddress (.v4 socket) ∧
        bytes = body address ++ rest)) ∨
      (tag = addrTypeIpv6 ∧ (∃ ip port, address = .socketAddress (.v6 ⟨ip, port, 0, 0⟩) ∧
        bytes = body address ++ rest)) ∨
      (tag = addrTypeDomainName ∧ (∃ name port, address = .domainNameAddress name port ∧
        (Text.utf8 name).length ≤ 255 ∧ bytes = body address ++ rest)) ↔
    address.plain = address ∧ ∃ written, writeToBuf address = some written ∧
      tag :: bytes = written ++ rest := by
  constructor
  · rintro (⟨rfl, socket, rfl, rfl⟩ | ⟨rfl, ip, port, rfl, rfl⟩ |
      ⟨rfl, name, port, rfl, short, rfl⟩)
    · exact ⟨rfl, _, writeToBuf_eq_some_iff.mpr ⟨fun _ _ other => (by cases other), rfl⟩, rfl⟩
    · exact ⟨rfl, _, writeToBuf_eq_some_iff.mpr ⟨fun _ _ other => (by cases other), rfl⟩, rfl⟩
    · refine ⟨rfl, _, writeToBuf_eq_some_iff.mpr ⟨?_, rfl⟩, rfl⟩
      intro _ _ same
      cases same
      exact short
  · rintro ⟨same, written, wrote, split⟩
    obtain ⟨short, rfl⟩ := writeToBuf_eq_some_iff.mp wrote
    obtain ⟨rfl, rfl⟩ := List.cons.inj split
    match address with
    | .socketAddress (.v4 socket) => exact Or.inl ⟨rfl, socket, rfl, rfl⟩
    | .socketAddress (.v6 ⟨ip, port, flowinfo, scopeId⟩) =>
        cases same
        exact Or.inr (Or.inl ⟨rfl, ip, port, rfl, rfl⟩)
    | .domainNameAddress name port =>
        exact Or.inr (Or.inr ⟨rfl, name, port, rfl, short name port rfl, rfl⟩)

/-- What is read is what was written, and the bytes behind it are left. -/
theorem readFrom_iff_written {bytes rest : Bytes} {address : Address} :
    readFrom bytes = .ok (address, rest) ↔ address.plain = address ∧
      ∃ written, writeToBuf address = some written ∧ bytes = written ++ rest := by
  unfold readFrom
  rw [bind_eq_ok_iff]
  simp only [readExact_eq_ok_iff]
  constructor
  · rintro ⟨first, middle, ⟨rfl, one⟩, parsed⟩
    obtain ⟨tag, rfl⟩ := List.length_eq_one_iff.mp one
    apply plain_body_iff.mp
    rw [List.headD_cons] at parsed
    split at parsed
    · exact Or.inl ⟨‹_›, readIpv4_eq_ok_iff.mp parsed⟩
    · split at parsed
      · exact Or.inr (Or.inl ⟨‹_›, readIpv6_eq_ok_iff.mp parsed⟩)
      · split at parsed
        · exact Or.inr (Or.inr ⟨‹_›, readDomainName_eq_ok_iff.mp parsed⟩)
        · exact absurd parsed throw_ne_ok
  · rintro ⟨same, written, wrote, rfl⟩
    obtain ⟨_, rfl⟩ := writeToBuf_eq_some_iff.mp wrote
    refine ⟨[kind address], body address ++ rest, ⟨rfl, rfl⟩, ?_⟩
    rw [List.headD_cons]
    rcases plain_body_iff.mpr ⟨same, _, wrote, rfl⟩ with ⟨tag, read⟩ | ⟨tag, read⟩ | ⟨tag, read⟩
    · rw [tag, if_pos rfl]
      exact readIpv4_eq_ok_iff.mpr read
    · rw [tag, if_neg (by decide), if_pos rfl]
      exact readIpv6_eq_ok_iff.mpr read
    · rw [tag, if_neg (by decide), if_neg (by decide), if_pos rfl]
      exact readDomainName_eq_ok_iff.mpr read

theorem writeToBuf_plain (address : Address) :
    address.plain.writeToBuf = address.writeToBuf := by
  match address with
  | .socketAddress (.v4 _) => rfl
  | .socketAddress (.v6 _) => rfl
  | .domainNameAddress _ _ => rfl

theorem plain_plain (address : Address) : address.plain.plain = address.plain := by
  match address with
  | .socketAddress (.v4 _) => rfl
  | .socketAddress (.v6 _) => rfl
  | .domainNameAddress _ _ => rfl

/-- An address that was written is read back, whatever follows it. -/
theorem readFrom_append {address : Address} {written : Bytes}
    (wrote : address.writeToBuf = some written) (rest : Bytes) :
    readFrom (written ++ rest) = .ok (address.plain, rest) :=
  readFrom_iff_written.mpr ⟨plain_plain address, written,
    (writeToBuf_plain address).trans wrote, rfl⟩

/-- The bytes of an address tell where they end: what starts with one address and with another
one holds the same address twice, with the same rest behind it. -/
theorem written_ends_itself {first second : Address} {front other behind rest : Bytes}
    (wrote : first.writeToBuf = some front) (wroteOther : second.writeToBuf = some other)
    (same : front ++ behind = other ++ rest) : first.plain = second.plain ∧ behind = rest := by
  have read := readFrom_append wrote behind
  rw [same, readFrom_append wroteOther rest, Except.ok.injEq, Prod.mk.injEq] at read
  exact ⟨read.1.symm, read.2.symm⟩

/-- The scope of an IPv6 address is not told. -/
theorem written_ends_itself_scope :
    Address.socketAddress (.v6 ⟨1, 80, 0, 0⟩) ≠ .socketAddress (.v6 ⟨1, 80, 0, 7⟩) ∧
      (Address.socketAddress (.v6 ⟨1, 80, 0, 0⟩)).plain =
        (Address.socketAddress (.v6 ⟨1, 80, 0, 7⟩)).plain :=
  ⟨by decide, (@written_ends_itself (.socketAddress (.v6 ⟨1, 80, 0, 0⟩))
    (.socketAddress (.v6 ⟨1, 80, 0, 7⟩)) _ _ [] [] rfl rfl rfl).1⟩

end Address

end AlienConnection.Native
