import AlienConnection.Library.Polled
import AlienConnection.Library.Wire

/-!
# The encrypted TCP stream

`tcprelay/aead.rs` cuts what is written into packets, seals the length and the data of each
packet, and sends the salt of the session in front of the first one. The reader takes the
salt, the lengths and the data apart again, however the bytes come in. The cipher itself is
not part of the repository: it is a parameter that opens what it has sealed.
-/

namespace AlienConnection.Native

open AlienConnection.Library

/-- An AEAD method with a key. A session is told by its salt, and each packet of a session is
sealed with a nonce of its own. -/
structure AeadMethod where
  saltLen : Nat
  tagLen : Nat
  encrypt : Bytes → Nat → Bytes → Bytes
  decrypt : Bytes → Nat → Bytes → Option Bytes
  tag_pos : 0 < tagLen
  length_encrypt : ∀ salt nonce plain, (encrypt salt nonce plain).length = plain.length + tagLen
  decrypt_encrypt : ∀ salt nonce plain, decrypt salt nonce (encrypt salt nonce plain) = some plain
  length_decrypt : ∀ salt nonce packet plain, decrypt salt nonce packet = some plain →
    plain.length + tagLen = packet.length

/-- A method without secrets, which can be evaluated: behind the text stand a mark, the nonce
and the length of the text. -/
def openMethod : AeadMethod where
  saltLen := 1
  tagLen := 3
  encrypt _ nonce plain := plain ++ [0xA5, UInt8.ofNat nonce, UInt8.ofNat plain.length]
  decrypt _ nonce packet :=
    let length := packet.length - 3
    if 3 ≤ packet.length ∧ packet.drop length = [0xA5, UInt8.ofNat nonce, UInt8.ofNat length] then
      some (packet.take length)
    else none
  tag_pos := by decide
  length_encrypt _ _ plain := by simp
  decrypt_encrypt _ nonce plain := by simp
  length_decrypt := by
    intro _ nonce packet plain opened
    simp only at opened
    split at opened
    · rename_i long
      cases opened
      rw [List.length_take]
      omega
    · cases opened

structure Cipher where
  salt : Bytes
  nonce : Nat
  deriving DecidableEq, Repr

namespace Cipher

def encryptPacket (method : AeadMethod) (cipher : Cipher) (plain : Bytes) : Bytes × Cipher :=
  (method.encrypt cipher.salt cipher.nonce plain, { cipher with nonce := cipher.nonce + 1 })

def decryptPacket (method : AeadMethod) (cipher : Cipher) (packet : Bytes) :
    Option Bytes × Cipher :=
  (method.decrypt cipher.salt cipher.nonce packet, { cipher with nonce := cipher.nonce + 1 })

/-- A packet is opened where it stands: the text replaces its front, the tag stays. -/
def inPlace (plain packet : Bytes) : Bytes := plain ++ packet.drop plain.length

end Cipher

namespace Aead

def maxPacketSize : Nat := 0x3FFF

/-! ## The writer -/

inductive EncryptWriteState where
  | assemblePacket
  | writing (pos : Nat)
  deriving DecidableEq, Repr

structure EncryptedWriter where
  cipher : Cipher
  buffer : Bytes
  state : EncryptWriteState
  salt : Bytes
  deriving DecidableEq, Repr

inductive Written where
  | pending
  | ready (count : Nat)
  | unexpectedEof
  deriving DecidableEq, Repr

namespace EncryptedWriter

def new (salt : Bytes) : EncryptedWriter := ⟨⟨salt, 0⟩, salt, .assemblePacket, salt⟩

def assemble (method : AeadMethod) (writer : EncryptedWriter) (buf : Bytes) : EncryptedWriter :=
  let (length, cipher) := writer.cipher.encryptPacket method (Bytes.bigEndian 2 buf.length)
  let (data, cipher) := cipher.encryptPacket method buf
  { writer with cipher := cipher, buffer := writer.buffer ++ length ++ data, state := .writing 0 }

/-- Write the assembled packet out. The bytes that the transport takes come with the result. -/
def writeOut (writer : EncryptedWriter) (pos : Nat) (count : Nat) (grants : List Nat) :
    Written × Bytes × EncryptedWriter :=
  let (draining, reached) := drain writer.buffer.length pos grants
  let taken := (writer.buffer.drop pos).take (reached - pos)
  match draining with
  | .done => (.ready count, taken, { writer with buffer := [], state := .assemblePacket })
  | .waiting => (.pending, taken, { writer with state := .writing reached })
  | .refused => (.unexpectedEof, taken, { writer with state := .writing reached })

def pollWriteEncrypted (method : AeadMethod) (writer : EncryptedWriter) (buf : Bytes)
    (grants : List Nat) : Written × Bytes × EncryptedWriter :=
  let buf := buf.take maxPacketSize
  match writer.state with
  | .assemblePacket => (writer.assemble method buf).writeOut 0 buf.length grants
  | .writing pos => writer.writeOut pos buf.length grants

def unsent (writer : EncryptedWriter) : Bytes :=
  match writer.state with
  | .assemblePacket => writer.buffer
  | .writing pos => writer.buffer.drop pos

/-- Writing out moves bytes from the buffer to the transport. The write returns exactly if
none are left, and the writer is then ready for the next packet. -/
inductive WroteOut (writer : EncryptedWriter) (pos count : Nat) :
    Written × Bytes × EncryptedWriter → Prop
  | done {taken : Bytes} {after : EncryptedWriter}
      (moved : taken ++ after.unsent = writer.buffer.drop pos)
      (cipher : after.cipher = writer.cipher) (state : after.state = .assemblePacket)
      (buffer : after.buffer = []) : WroteOut writer pos count (.ready count, taken, after)
  | stuck {result : Written} {taken : Bytes} {after : EncryptedWriter} {reached : Nat}
      (unready : result = .pending ∨ result = .unexpectedEof)
      (moved : taken ++ after.unsent = writer.buffer.drop pos)
      (cipher : after.cipher = writer.cipher) (state : after.state = .writing reached)
      (early : reached < after.buffer.length) : WroteOut writer pos count (result, taken, after)

theorem writeOut_spec {writer : EncryptedWriter} {pos : Nat} (inside : pos ≤ writer.buffer.length)
    (count : Nat) (grants : List Nat) :
    WroteOut writer pos count (writer.writeOut pos count grants) := by
  obtain ⟨forward, bounded, done⟩ := drain_spec inside grants
  unfold writeOut
  generalize drain writer.buffer.length pos grants = result at forward bounded done
  obtain ⟨draining, reached⟩ := result
  dsimp only at forward bounded done
  have rest : (writer.buffer.drop pos).take (reached - pos) ++ writer.buffer.drop reached =
      writer.buffer.drop pos := by
    have place : reached = pos + (reached - pos) := by omega
    nth_rewrite 2 [place]
    rw [← List.drop_drop, List.take_append_drop]
  cases draining with
  | done =>
      rw [done.mp rfl, List.drop_length] at rest
      rw [done.mp rfl]
      exact .done rest rfl rfl rfl
  | waiting =>
      exact .stuck (Or.inl rfl) rest rfl rfl
        (Nat.lt_of_le_of_ne bounded fun atEnd => by cases done.mpr atEnd)
  | refused =>
      exact .stuck (Or.inr rfl) rest rfl rfl
        (Nat.lt_of_le_of_ne bounded fun atEnd => by cases done.mpr atEnd)

end EncryptedWriter

/-! ## The reader -/

inductive ProtocolError where
  | unexpectedEof
  | decryptDataError
  | decryptLengthError
  | dataTooLong (length : Nat)
  | repeatedSalt
  | cipherIsNone
  deriving DecidableEq, Repr

inductive DecryptReadState where
  | waitSalt
  | readLength
  | readData (length : Nat)
  | bufferedData (pos : Nat)
  deriving DecidableEq, Repr

structure DecryptedReader where
  state : DecryptReadState
  cipher : Option Cipher
  buffer : Bytes
  salt : Option Bytes
  hasHandshaked : Bool
  deriving DecidableEq, Repr

inductive Round where
  | again
  | pending
  | ready (data : Bytes)
  | failed (error : ProtocolError)
  deriving DecidableEq, Repr

namespace DecryptedReader

def new (method : AeadMethod) : DecryptedReader :=
  if 0 < method.saltLen then ⟨.waitSalt, none, [], none, false⟩
  else ⟨.readLength, some ⟨[], 0⟩, [], none, false⟩

def decryptLength (method : AeadMethod) (cipher : Cipher) (packet : Bytes) :
    Except ProtocolError Nat × Bytes × Cipher :=
  match cipher.decryptPacket method packet with
  | (none, cipher) => (.error .decryptLengthError, packet, cipher)
  | (some plain, cipher) =>
      let length := Bytes.ofBigEndian (plain.take 2)
      (if length > maxPacketSize then .error (.dataTooLong length) else .ok length,
        Cipher.inPlace plain packet, cipher)

def readSalt (method : AeadMethod) (reader : DecryptedReader) (stream : Polled UInt8) :
    Round × DecryptedReader × Polled UInt8 :=
  match Polled.pollExact method.saltLen reader.buffer stream with
  | (.full, buffer, stream) =>
      (.again, ⟨.readLength, some ⟨buffer, 0⟩, [], some buffer, true⟩, stream)
  | (.waiting, buffer, stream) => (.pending, { reader with buffer := buffer }, stream)
  | (_, buffer, stream) => (.failed .unexpectedEof, { reader with buffer := buffer }, stream)

def readLength (method : AeadMethod) (reader : DecryptedReader) (stream : Polled UInt8) :
    Round × DecryptedReader × Polled UInt8 :=
  match Polled.pollExact (2 + method.tagLen) reader.buffer stream with
  | (.full, buffer, stream) =>
      match reader.cipher with
      | none => (.failed .cipherIsNone, { reader with buffer := buffer }, stream)
      | some cipher =>
          match decryptLength method cipher buffer with
          | (.error error, buffer, cipher) =>
              (.failed error, { reader with buffer := buffer, cipher := some cipher }, stream)
          | (.ok length, _, cipher) =>
              (.again, { reader with
                state := .readData length, buffer := [], cipher := some cipher }, stream)
  | (.waiting, buffer, stream) => (.pending, { reader with buffer := buffer }, stream)
  | (.ended, buffer, stream) => (.ready [], { reader with buffer := buffer }, stream)
  | (.broken, buffer, stream) => (.failed .unexpectedEof, { reader with buffer := buffer }, stream)

/-- A salt is remembered only after the first packet that could be opened. -/
def readData (method : AeadMethod) (repeated : Bytes → Bool) (reader : DecryptedReader)
    (length : Nat) (stream : Polled UInt8) : Round × DecryptedReader × Polled UInt8 :=
  match Polled.pollExact (length + method.tagLen) reader.buffer stream with
  | (.full, buffer, stream) =>
      match reader.cipher with
      | none => (.failed .cipherIsNone, { reader with buffer := buffer }, stream)
      | some cipher =>
          match cipher.decryptPacket method buffer with
          | (none, cipher) =>
              (.failed .decryptDataError,
                { reader with buffer := buffer, cipher := some cipher }, stream)
          | (some plain, cipher) =>
              if (reader.salt.map repeated).getD false then
                (.failed .repeatedSalt, { reader with
                  buffer := Cipher.inPlace plain buffer, cipher := some cipher, salt := none },
                  stream)
              else
                (.again, { reader with
                  state := .bufferedData 0, buffer := plain, cipher := some cipher, salt := none },
                  stream)
  | (.waiting, buffer, stream) => (.pending, { reader with buffer := buffer }, stream)
  | (_, buffer, stream) => (.failed .unexpectedEof, { reader with buffer := buffer }, stream)

def takeBuffered (reader : DecryptedReader) (pos capacity : Nat) : Round × DecryptedReader :=
  if pos < reader.buffer.length then
    let buffered := reader.buffer.drop pos
    let consumed := min buffered.length capacity
    (.ready (buffered.take consumed), { reader with state := .bufferedData (pos + consumed) })
  else (.again, { reader with state := .readLength, buffer := [] })

def round (method : AeadMethod) (repeated : Bytes → Bool) (capacity : Nat)
    (reader : DecryptedReader) (stream : Polled UInt8) : Round × DecryptedReader × Polled UInt8 :=
  match reader.state with
  | .waitSalt => reader.readSalt method stream
  | .readLength => reader.readLength method stream
  | .readData length => reader.readData method repeated length stream
  | .bufferedData pos =>
      let (result, reader) := reader.takeBuffered pos capacity
      (result, reader, stream)

def pollLoop (method : AeadMethod) (repeated : Bytes → Bool) (capacity : Nat) :
    Nat → DecryptedReader → Polled UInt8 → Round × DecryptedReader × Polled UInt8
  | 0, reader, stream => (.again, reader, stream)
  | rounds + 1, reader, stream =>
      match reader.round method repeated capacity stream with
      | (.again, reader, stream) => pollLoop method repeated capacity rounds reader stream
      | result => result

def unopened (reader : DecryptedReader) (stream : Polled UInt8) : Nat :=
  match reader.state with
  | .bufferedData _ => stream.contents.length
  | _ => reader.buffer.length + stream.contents.length

/-- Every packet takes bytes, so this many rounds are enough. -/
def enoughRounds (reader : DecryptedReader) (stream : Polled UInt8) : Nat :=
  2 * reader.unopened stream + 3

def pollReadDecrypted (method : AeadMethod) (repeated : Bytes → Bool) (capacity : Nat)
    (reader : DecryptedReader) (stream : Polled UInt8) : Round × DecryptedReader × Polled UInt8 :=
  pollLoop method repeated capacity (reader.enoughRounds stream) reader stream

end DecryptedReader

end Aead

end AlienConnection.Native
