import AlienConnection.Native.AeadStream

/-!
# What the reader of an encrypted stream makes of the bytes of its writer

A stream is the salt of a session and the packets sealed one after the other. This module
says where the reader stands in it, and that every round of its loop moves it forward in
the stream: it never fails, never delivers a byte twice and never leaves one out, in
whatever pieces the bytes come in.
-/

namespace AlienConnection.Native.Aead

open AlienConnection.Library

/-! ## The stream of some packets -/

def sealPacket (method : AeadMethod) (salt : Bytes) (nonce : Nat) (packet : Bytes) : Bytes :=
  method.encrypt salt nonce (Bytes.bigEndian 2 packet.length) ++
    method.encrypt salt (nonce + 1) packet

def sealPackets (method : AeadMethod) (salt : Bytes) : Nat → List Bytes → Bytes
  | _, [] => []
  | nonce, packet :: rest =>
      sealPacket method salt nonce packet ++ sealPackets method salt (nonce + 2) rest

section Stream

variable (method : AeadMethod) (salt : Bytes)

theorem sealPackets_append (nonce : Nat) (first second : List Bytes) :
    sealPackets method salt nonce (first ++ second) =
      sealPackets method salt nonce first ++
        sealPackets method salt (nonce + 2 * first.length) second := by
  induction first generalizing nonce with
  | nil => rfl
  | cons packet rest ih =>
      have next : nonce + 2 + 2 * rest.length = nonce + 2 * (rest.length + 1) := by omega
      rw [List.cons_append, sealPackets, sealPackets, ih, List.append_assoc, next,
        List.length_cons]

theorem length_sealPacket (nonce : Nat) (packet : Bytes) :
    (sealPacket method salt nonce packet).length =
      2 + method.tagLen + (packet.length + method.tagLen) := by
  rw [sealPacket, List.length_append, method.length_encrypt, method.length_encrypt,
    Bytes.length_bigEndian]

theorem sealPackets_eq_nil_iff {nonce : Nat} {packets : List Bytes} :
    sealPackets method salt nonce packets = [] ↔ packets = [] := by
  constructor
  · intro none
    cases packets with
    | nil => rfl
    | cons packet rest =>
        have length := congrArg List.length none
        rw [sealPackets, List.length_append, length_sealPacket, List.length_nil] at length
        omega
  · rintro rfl
    rfl

end Stream

/-! ## Where the reader stands -/

section Reading

variable (method : AeadMethod) (salt : Bytes) (packets : List Bytes)

/-- The reader stands somewhere in the stream of some packets: what it has in its buffer and
what is left of the stream is what it needs next, and it has delivered what came before. -/
inductive Reading : DecryptedReader → Bytes → Bytes → Prop where
  | waitSalt {reader : DecryptedReader} {left : Bytes} (state : reader.state = .waitSalt)
      (room : reader.buffer.length ≤ method.saltLen)
      (bytes : reader.buffer ++ left = salt ++ sealPackets method salt 0 packets) :
      Reading reader left []
  | readLength {reader : DecryptedReader} {left : Bytes} {done rest : List Bytes}
      (split : packets = done ++ rest) (state : reader.state = .readLength)
      (cipher : reader.cipher = some ⟨salt, 2 * done.length⟩)
      (remembered : ∀ other, reader.salt = some other → other = salt)
      (room : reader.buffer.length ≤ 2 + method.tagLen)
      (bytes : reader.buffer ++ left = sealPackets method salt (2 * done.length) rest) :
      Reading reader left done.flatten
  | readData {reader : DecryptedReader} {left packet : Bytes} {done rest : List Bytes}
      (split : packets = done ++ packet :: rest) (state : reader.state = .readData packet.length)
      (cipher : reader.cipher = some ⟨salt, 2 * done.length + 1⟩)
      (remembered : ∀ other, reader.salt = some other → other = salt)
      (room : reader.buffer.length ≤ packet.length + method.tagLen)
      (bytes : reader.buffer ++ left = method.encrypt salt (2 * done.length + 1) packet ++
        sealPackets method salt (2 * done.length + 2) rest) :
      Reading reader left done.flatten
  | bufferedData {reader : DecryptedReader} {left packet : Bytes} {done rest : List Bytes}
      {pos : Nat} (split : packets = done ++ packet :: rest)
      (state : reader.state = .bufferedData pos)
      (cipher : reader.cipher = some ⟨salt, 2 * done.length + 2⟩)
      (remembered : ∀ other, reader.salt = some other → other = salt)
      (inside : pos ≤ packet.length) (buffer : reader.buffer = packet)
      (bytes : left = sealPackets method salt (2 * done.length + 2) rest) :
      Reading reader left (done.flatten ++ packet.take pos)

/-- What goes down with every round that is followed by another one. -/
def weight (reader : DecryptedReader) (stream : Polled UInt8) : Nat :=
  match reader.state with
  | .waitSalt => 2 * reader.unopened stream + 1
  | .readLength => 2 * reader.unopened stream
  | .readData _ => 2 * reader.unopened stream
  | .bufferedData _ => 2 * reader.unopened stream + 1

/-- Some packets have been delivered, and beyond what has come in begins the next one. -/
def AtBoundary (delivered beyond : Bytes) : Prop :=
  ∃ done rest, packets = done ++ rest ∧ delivered = done.flatten ∧
    beyond = sealPackets method salt (2 * done.length) rest

/-- A round is fine if it leaves the reader in the stream. It waits only for what has not come
in, may fail only if the stream ends early, and says that there is no more only at an end
between two packets. -/
def Fine (capacity bound : Nat) (ended : Bool) (beyond delivered : Bytes)
    (result : Round × DecryptedReader × Polled UInt8) : Prop :=
  result.2.2.ended = ended ∧ match result.1 with
  | .again =>
      Reading method salt packets result.2.1 (result.2.2.contents ++ beyond) delivered ∧
        weight result.2.1 result.2.2 < bound
  | .pending =>
      Reading method salt packets result.2.1 (result.2.2.contents ++ beyond) delivered ∧
        (beyond = [] → delivered = packets.flatten)
  | .ready data =>
      Reading method salt packets result.2.1 (result.2.2.contents ++ beyond) (delivered ++ data) ∧
        (data = [] → capacity = 0 ∨
          (ended = true ∧ AtBoundary method salt packets delivered beyond))
  | .failed _ => ended = true ∧ beyond ≠ []

variable {method salt packets}

theorem AtBoundary.whole {delivered : Bytes}
    (boundary : AtBoundary method salt packets delivered []) : delivered = packets.flatten := by
  obtain ⟨done, rest, split, front, none⟩ := boundary
  rw [(sealPackets_eq_nil_iff method salt).mp none.symm, List.append_nil] at split
  rw [front, split]

/-- If less than two packets are beyond, all but the last have been delivered. -/
theorem AtBoundary.all_but_last {delivered beyond last : Bytes} {before : List Bytes}
    (boundary : AtBoundary method salt (before ++ [last]) delivered beyond) (more : beyond ≠ [])
    (short : before ≠ [] → beyond.length ≤ 2 + method.tagLen + (last.length + method.tagLen)) :
    delivered = before.flatten := by
  obtain ⟨done, rest, split, rfl, rfl⟩ := boundary
  have some : rest ≠ [] := fun none => more (none ▸ rfl)
  obtain ⟨shorter, final, rfl⟩ := List.eq_nil_or_concat rest |>.resolve_left some
  rw [List.concat_eq_append, ← List.append_assoc] at split
  obtain ⟨front, same⟩ := List.append_inj' split rfl
  cases same
  cases shorter with
  | nil => rw [front, List.append_nil]
  | cons packet others =>
      have length := short (by rw [front]; simp)
      rw [List.concat_eq_append, sealPackets_append, List.length_append] at length
      simp only [sealPackets, List.length_append, length_sealPacket, List.length_nil] at length
      omega

/-- What the reader needs next is in the stream: it gets all of it, or the stream has not come
so far. -/
inductive Takes (count : Nat) (buffer : Bytes) (stream : Polled UInt8) (beyond next rest : Bytes) :
    Filling × Bytes × Polled UInt8 → Prop
  | full {after : Polled UInt8} (keeps : after.ended = stream.ended)
      (left : after.contents ++ beyond = rest)
      (fewer : count + after.contents.length = buffer.length + stream.contents.length) :
      Takes count buffer stream beyond next rest (.full, next, after)
  | short {filling : Filling} {held : Bytes} {after : Polled UInt8}
      (keeps : after.ended = stream.ended) (kind : filling ≠ .full) (few : held.length < count)
      (whole : held ++ (after.contents ++ beyond) = next ++ rest) (early : beyond ≠ [])
      (ends : filling ≠ .waiting → stream.ended = true)
      (between : filling = .ended → beyond = next ++ rest) :
      Takes count buffer stream beyond next rest (filling, held, after)

theorem takes_next {count : Nat} {buffer beyond next rest : Bytes} {stream : Polled UInt8}
    (room : buffer.length ≤ count) (length : next.length = count)
    (bytes : buffer ++ (stream.contents ++ beyond) = next ++ rest) :
    Takes count buffer stream beyond next rest (Polled.pollExact count buffer stream) := by
  have fills := Polled.pollExact_fills room stream
  generalize Polled.pollExact count buffer stream = result at fills
  obtain ⟨filling, held, after⟩ := result
  have whole : held ++ (after.contents ++ beyond) = next ++ rest := by
    rw [← List.append_assoc, fills.conserves, List.append_assoc, bytes]
  by_cases full : filling = .full
  · subst full
    obtain ⟨rfl, left⟩ := List.append_inj whole ((fills.full rfl).trans length.symm)
    have lengths := congrArg List.length fills.conserves
    simp only [List.length_append, length] at lengths
    exact .full fills.keeps left lengths
  · obtain ⟨none, few⟩ := fills.short full
    refine .short fills.keeps full few whole ?_ ?_ ?_
    · rintro rfl
      have lengths := congrArg List.length whole
      simp only [none, List.append_nil, List.length_append] at lengths few
      omega
    · intro going
      cases filling with
      | full => exact absurd rfl full
      | waiting => exact absurd rfl going
      | ended => exact (fills.ended rfl).1
      | broken => exact (fills.broken rfl).1
    · intro atEnd
      have empty : held = [] := (fills.ended atEnd).2
      rw [empty, show after.contents = [] from none] at whole
      exact whole

theorem readSalt_fine {reader : DecryptedReader} {stream : Polled UInt8} {beyond : Bytes}
    {capacity : Nat} (saltLength : salt.length = method.saltLen)
    (state : reader.state = .waitSalt) (room : reader.buffer.length ≤ method.saltLen)
    (bytes : reader.buffer ++ (stream.contents ++ beyond) =
      salt ++ sealPackets method salt 0 packets) :
    Fine method salt packets capacity (weight reader stream) stream.ended beyond []
      (reader.readSalt method stream) := by
  have takes := takes_next room saltLength bytes
  unfold DecryptedReader.readSalt
  generalize Polled.pollExact method.saltLen reader.buffer stream = result at takes
  cases takes with
  | full keeps left fewer =>
      refine ⟨keeps, @Reading.readLength method salt packets _ _ [] packets rfl rfl rfl
        (fun _ same => (Option.some.inj same).symm) (Nat.zero_le _) left, ?_⟩
      simp only [weight, state, DecryptedReader.unopened, List.length_nil]
      omega
  | @short filling _ _ keeps kind few whole early ends _ =>
      cases filling with
      | full => exact absurd rfl kind
      | waiting => exact ⟨keeps, .waitSalt state few.le whole, fun all => absurd all early⟩
      | _ => exact ⟨keeps, ends (by simp), early⟩

theorem decryptLength_encrypt {packet : Bytes} (small : packet.length ≤ maxPacketSize)
    (nonce : Nat) :
    DecryptedReader.decryptLength method ⟨salt, nonce⟩
        (method.encrypt salt nonce (Bytes.bigEndian 2 packet.length)) =
      (.ok packet.length, Cipher.inPlace (Bytes.bigEndian 2 packet.length)
        (method.encrypt salt nonce (Bytes.bigEndian 2 packet.length)), ⟨salt, nonce + 1⟩) := by
  have fits : packet.length < 256 ^ 2 := lt_of_le_of_lt small (by decide)
  have whole : (Bytes.bigEndian 2 packet.length).take 2 = Bytes.bigEndian 2 packet.length :=
    List.take_of_length_le (by simp)
  simp only [DecryptedReader.decryptLength, Cipher.decryptPacket, method.decrypt_encrypt, whole,
    Bytes.ofBigEndian_bigEndian fits]
  rw [if_neg (Nat.not_lt.mpr small)]

theorem readLength_fine {reader : DecryptedReader} {stream : Polled UInt8} {beyond : Bytes}
    {capacity : Nat} {done rest : List Bytes} (small : ∀ packet ∈ packets,
      packet.length ≤ maxPacketSize)
    (split : packets = done ++ rest) (state : reader.state = .readLength)
    (cipher : reader.cipher = some ⟨salt, 2 * done.length⟩)
    (remembered : ∀ other, reader.salt = some other → other = salt)
    (room : reader.buffer.length ≤ 2 + method.tagLen)
    (bytes : reader.buffer ++ (stream.contents ++ beyond) =
      sealPackets method salt (2 * done.length) rest) :
    Fine method salt packets capacity (weight reader stream) stream.ended beyond done.flatten
      (reader.readLength method stream) := by
  have sealedLength (packet : Bytes) :
      (method.encrypt salt (2 * done.length) (Bytes.bigEndian 2 packet.length)).length =
        2 + method.tagLen := by
    rw [method.length_encrypt, Bytes.length_bigEndian]
  unfold DecryptedReader.readLength
  cases rest with
  | nil =>
      have fills := Polled.pollExact_fills room stream
      generalize Polled.pollExact (2 + method.tagLen) reader.buffer stream = result at fills
      obtain ⟨filling, held, after⟩ := result
      have whole : held ++ (after.contents ++ beyond) = [] := by
        rw [← List.append_assoc, fills.conserves, List.append_assoc, bytes]
        rfl
      have nothing : held = [] := (List.append_eq_nil_iff.mp whole).1
      have next := @Reading.readLength method salt packets { reader with buffer := held }
        (after.contents ++ beyond) done [] split state cipher remembered
        (by rw [nothing]; exact Nat.zero_le _) whole
      have all : done.flatten = packets.flatten := by rw [split, List.append_nil]
      cases filling with
      | full =>
          have length := fills.full rfl
          dsimp only at length
          rw [nothing, List.length_nil] at length
          omega
      | waiting => exact ⟨fills.keeps, next, fun _ => all⟩
      | ended =>
          have beyond : beyond = [] := (List.append_eq_nil_iff.mp
            (List.append_eq_nil_iff.mp whole).2).2
          refine ⟨fills.keeps, ?_,
            fun _ => Or.inr ⟨(fills.ended rfl).1, done, [], split, rfl, beyond⟩⟩
          rw [List.append_nil]
          exact next
      | broken => exact absurd nothing (fills.broken rfl).2
  | cons packet rest =>
      rw [sealPackets, sealPacket, List.append_assoc] at bytes
      have takes := takes_next room (sealedLength packet) bytes
      generalize Polled.pollExact (2 + method.tagLen) reader.buffer stream = result at takes
      cases takes with
      | full keeps left fewer =>
          have opened := @decryptLength_encrypt method salt packet
            (small packet (by simp [split])) (2 * done.length)
          simp only [cipher, opened]
          refine ⟨keeps, Reading.readData split rfl rfl remembered (Nat.zero_le _) left, ?_⟩
          simp only [weight, state, DecryptedReader.unopened, List.length_nil]
          omega
      | @short filling held _ keeps kind few whole early ends between =>
          rw [← List.append_assoc (method.encrypt _ _ _)] at whole between
          have next := @Reading.readLength method salt packets { reader with buffer := held } _ done
            (packet :: rest) split state cipher remembered few.le whole
          cases filling with
          | full => exact absurd rfl kind
          | waiting => exact ⟨keeps, next, fun all => absurd all early⟩
          | ended =>
              refine ⟨keeps, ?_, fun _ =>
                Or.inr ⟨ends (by simp), done, packet :: rest, split, rfl, between rfl⟩⟩
              rw [List.append_nil]
              exact next
          | broken => exact ⟨keeps, ends (by simp), early⟩

theorem readData_fine {repeated : Bytes → Bool} {reader : DecryptedReader}
    {stream : Polled UInt8} {beyond packet : Bytes} {capacity : Nat} {done rest : List Bytes}
    (fresh : repeated salt = false) (split : packets = done ++ packet :: rest)
    (state : reader.state = .readData packet.length)
    (cipher : reader.cipher = some ⟨salt, 2 * done.length + 1⟩)
    (remembered : ∀ other, reader.salt = some other → other = salt)
    (room : reader.buffer.length ≤ packet.length + method.tagLen)
    (bytes : reader.buffer ++ (stream.contents ++ beyond) =
      method.encrypt salt (2 * done.length + 1) packet ++
        sealPackets method salt (2 * done.length + 2) rest) :
    Fine method salt packets capacity (weight reader stream) stream.ended beyond done.flatten
      (reader.readData method repeated packet.length stream) := by
  have takes := takes_next room (method.length_encrypt _ _ _) bytes
  unfold DecryptedReader.readData
  generalize Polled.pollExact (packet.length + method.tagLen) reader.buffer stream = result
    at takes
  cases takes with
  | full keeps left fewer =>
      have accepted : (reader.salt.map repeated).getD false = false := by
        cases known : reader.salt with
        | none => rfl
        | some other => simp [remembered other known, fresh]
      simp only [cipher, Cipher.decryptPacket, method.decrypt_encrypt, accepted,
        Bool.false_eq_true, if_false]
      have start := @Reading.bufferedData method salt packets
        { reader with
          state := .bufferedData 0, buffer := packet, cipher := some ⟨salt, 2 * done.length + 2⟩,
          salt := none }
        _ packet done rest 0 split rfl rfl (fun _ none => by cases none) (Nat.zero_le _) rfl left
      rw [List.take_zero, List.append_nil] at start
      refine ⟨keeps, start, ?_⟩
      have tag := method.tag_pos
      simp only [weight, state, DecryptedReader.unopened]
      omega
  | @short filling _ _ keeps kind few whole early ends _ =>
      cases filling with
      | full => exact absurd rfl kind
      | waiting =>
          exact ⟨keeps, .readData split state cipher remembered few.le whole,
            fun all => absurd all early⟩
      | _ => exact ⟨keeps, ends (by simp), early⟩

theorem takeBuffered_fine {reader : DecryptedReader} {stream : Polled UInt8}
    {beyond packet : Bytes} {capacity pos : Nat} {done rest : List Bytes}
    (split : packets = done ++ packet :: rest) (state : reader.state = .bufferedData pos)
    (cipher : reader.cipher = some ⟨salt, 2 * done.length + 2⟩)
    (remembered : ∀ other, reader.salt = some other → other = salt)
    (inside : pos ≤ packet.length) (buffer : reader.buffer = packet)
    (bytes : stream.contents ++ beyond = sealPackets method salt (2 * done.length + 2) rest) :
    Fine method salt packets capacity (weight reader stream) stream.ended beyond
      (done.flatten ++ packet.take pos)
      ((reader.takeBuffered pos capacity).1, (reader.takeBuffered pos capacity).2, stream) := by
  unfold DecryptedReader.takeBuffered
  rw [buffer]
  split
  · rename_i more
    refine ⟨rfl, ?_, ?_⟩
    · have moved := @Reading.bufferedData method salt packets
        { reader with
          state := .bufferedData (pos + min (packet.drop pos).length capacity), buffer := packet }
        (stream.contents ++ beyond) packet done rest
        (pos + min (packet.drop pos).length capacity) split rfl cipher remembered
        (by rw [List.length_drop]; omega) rfl bytes
      rw [List.take_add, ← List.append_assoc] at moved
      exact moved
    · intro none
      rw [List.take_eq_nil_iff, List.drop_eq_nil_iff] at none
      rcases none with none | none
      · rw [List.length_drop] at none
        exact Or.inl (by omega)
      · omega
  · rename_i ceased
    have atEnd : packet.take pos = packet := List.take_of_length_le (Nat.le_of_not_lt ceased)
    have next : 2 * (done ++ [packet]).length = 2 * done.length + 2 := by simp; omega
    have moved := @Reading.readLength method salt packets
      { reader with state := .readLength, buffer := [] } (stream.contents ++ beyond)
      (done ++ [packet]) rest (by rw [split, List.append_assoc]; rfl) rfl
      (by rw [next]; exact cipher) remembered (Nat.zero_le _) (by rw [next]; exact bytes)
    rw [List.flatten_concat] at moved
    rw [atEnd]
    refine ⟨rfl, moved, ?_⟩
    simp only [weight, state, DecryptedReader.unopened, List.length_nil, Nat.zero_add]
    omega

/-- Every round of the loop is fine. -/
theorem round_fine {repeated : Bytes → Bool} {reader : DecryptedReader} {stream : Polled UInt8}
    {beyond delivered : Bytes} (saltLength : salt.length = method.saltLen)
    (small : ∀ packet ∈ packets, packet.length ≤ maxPacketSize) (fresh : repeated salt = false)
    (capacity : Nat)
    (reading : Reading method salt packets reader (stream.contents ++ beyond) delivered) :
    Fine method salt packets capacity (weight reader stream) stream.ended beyond delivered
      (reader.round method repeated capacity stream) := by
  unfold DecryptedReader.round
  generalize leftEq : stream.contents ++ beyond = left at reading
  cases reading with
  | waitSalt state room bytes =>
      rw [state]
      exact readSalt_fine saltLength state room (leftEq ▸ bytes)
  | readLength split state cipher remembered room bytes =>
      rw [state]
      exact readLength_fine small split state cipher remembered room (leftEq ▸ bytes)
  | readData split state cipher remembered room bytes =>
      rw [state]
      exact readData_fine fresh split state cipher remembered room (leftEq ▸ bytes)
  | bufferedData split state cipher remembered inside buffer bytes =>
      rw [state]
      exact takeBuffered_fine split state cipher remembered inside buffer (leftEq.trans bytes)

/-- A read comes out fine, and does come out: it has rounds enough. -/
theorem pollLoop_fine {repeated : Bytes → Bool} {reader : DecryptedReader}
    {stream : Polled UInt8} {beyond delivered : Bytes} (saltLength : salt.length = method.saltLen)
    (small : ∀ packet ∈ packets, packet.length ≤ maxPacketSize) (fresh : repeated salt = false)
    (capacity : Nat) {rounds : Nat} (enough : weight reader stream < rounds)
    (reading : Reading method salt packets reader (stream.contents ++ beyond) delivered) :
    Fine method salt packets capacity 0 stream.ended beyond delivered
      (DecryptedReader.pollLoop method repeated capacity rounds reader stream) := by
  induction rounds generalizing reader stream with
  | zero => exact absurd enough (Nat.not_lt_zero _)
  | succ rounds ih =>
      have fine := round_fine saltLength small fresh capacity reading
      rw [DecryptedReader.pollLoop]
      generalize reader.round method repeated capacity stream = result at fine
      obtain ⟨outcome, reader', stream'⟩ := result
      cases outcome with
      | again =>
          obtain ⟨kept, reading, lighter⟩ := fine
          exact kept ▸ ih (lt_of_lt_of_le lighter (Nat.le_of_lt_succ enough)) reading
      | pending => exact fine
      | ready data => exact fine
      | failed error => exact fine

theorem weight_lt_enoughRounds (reader : DecryptedReader) (stream : Polled UInt8) :
    weight reader stream < reader.enoughRounds stream := by
  unfold weight DecryptedReader.enoughRounds
  split <;> omega

theorem pollReadDecrypted_fine {repeated : Bytes → Bool} {reader : DecryptedReader}
    {stream : Polled UInt8} {beyond delivered : Bytes} (saltLength : salt.length = method.saltLen)
    (small : ∀ packet ∈ packets, packet.length ≤ maxPacketSize) (fresh : repeated salt = false)
    (capacity : Nat)
    (reading : Reading method salt packets reader (stream.contents ++ beyond) delivered) :
    Fine method salt packets capacity 0 stream.ended beyond delivered
      (reader.pollReadDecrypted method repeated capacity stream) :=
  pollLoop_fine saltLength small fresh capacity (weight_lt_enoughRounds reader stream) reading

/-! ## A longer stream -/

/-- A packet that is sent behind the others is left for the reader. -/
theorem reading_append {reader : DecryptedReader} {left delivered : Bytes} (packet : Bytes)
    (reading : Reading method salt packets reader left delivered) :
    Reading method salt (packets ++ [packet]) reader
      (left ++ sealPacket method salt (2 * packets.length) packet) delivered := by
  have single (nonce : Nat) : sealPackets method salt nonce [packet] =
      sealPacket method salt nonce packet := List.append_nil _
  cases reading with
  | waitSalt state room bytes =>
      refine Reading.waitSalt state room ?_
      rw [← List.append_assoc, bytes, sealPackets_append, single, Nat.zero_add, List.append_assoc]
  | readLength split state cipher remembered room bytes =>
      refine Reading.readLength (by rw [split, List.append_assoc]) state cipher remembered room ?_
      rw [← List.append_assoc, bytes, sealPackets_append, single, split, List.length_append,
        Nat.mul_add]
  | readData split state cipher remembered room bytes =>
      refine Reading.readData (by rw [split, List.append_assoc, List.cons_append]) state cipher
        remembered room ?_
      rw [← List.append_assoc, bytes, sealPackets_append, single, split, List.length_append,
        List.append_assoc, List.length_cons]
      congr 3
      omega
  | bufferedData split state cipher remembered inside buffer bytes =>
      refine Reading.bufferedData (by rw [split, List.append_assoc, List.cons_append]) state cipher
        remembered inside buffer ?_
      rw [bytes, sealPackets_append, single, split, List.length_append, List.length_cons]
      congr 2
      omega

/-! ## What has been delivered -/

/-- What has been delivered is the front of what the packets hold. -/
theorem delivered_front {reader : DecryptedReader} {left delivered : Bytes}
    (reading : Reading method salt packets reader left delivered) :
    delivered <+: packets.flatten := by
  cases reading with
  | waitSalt state room bytes => exact List.nil_prefix
  | readLength split state cipher remembered room bytes =>
      rw [split, List.flatten_append]
      exact List.prefix_append _ _
  | readData split state cipher remembered room bytes =>
      rw [split, List.flatten_append]
      exact List.prefix_append _ _
  | bufferedData split state cipher remembered inside buffer bytes =>
      rw [split, List.flatten_append, List.flatten_cons]
      apply (List.prefix_append_right_inj _).mpr
      exact (List.take_prefix _ _).trans (List.prefix_append _ _)

/-- As long as anything is left of the stream, nothing of the last packet is delivered. -/
theorem delivered_front_of_left {reader : DecryptedReader} {left delivered last : Bytes}
    {before : List Bytes}
    (reading : Reading method salt (before ++ [last]) reader left delivered) (more : left ≠ []) :
    delivered <+: before.flatten := by
  have front {done rest : List Bytes} (split : before ++ [last] = done ++ rest)
      (some : rest ≠ []) : done.flatten <+: before.flatten := by
    obtain ⟨shorter, final, rfl⟩ := List.eq_nil_or_concat rest |>.resolve_left some
    rw [List.concat_eq_append, ← List.append_assoc] at split
    rw [(List.append_inj' split rfl).1, List.flatten_append]
    exact List.prefix_append _ _
  cases reading with
  | waitSalt state room bytes => exact List.nil_prefix
  | readLength split state cipher remembered room bytes =>
      apply front split
      rintro rfl
      exact more (List.append_eq_nil_iff.mp bytes).2
  | readData split state cipher remembered room bytes =>
      exact front split (List.cons_ne_nil _ _)
  | @bufferedData packet done rest pos split state cipher remembered inside buffer bytes =>
      have whole : (done ++ [packet]).flatten <+: before.flatten := by
        refine @front (done ++ [packet]) rest ?_ ?_
        · rw [split, List.append_assoc]
          rfl
        · rintro rfl
          exact more bytes
      rw [List.flatten_concat] at whole
      exact ((List.prefix_append_right_inj _).mpr (List.take_prefix _ _)).trans whole

end Reading

end AlienConnection.Native.Aead
