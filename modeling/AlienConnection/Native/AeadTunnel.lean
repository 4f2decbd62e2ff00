import AlienConnection.Library.Machine
import AlienConnection.Native.AeadReading

/-!
# Both ends of an encrypted stream

A writer and a reader of one session with the transport between them. Writes, partial
progress of the transport, arrivals and reads come in any order, and the transport may be
shut down at any moment. Whoever writes offers the same bytes again until the write has
returned, as the code that drives these streams does, and gets an error after the shutdown.
-/

namespace AlienConnection.Native.Aead

open AlienConnection.Library

structure Tunnel where
  writer : EncryptedWriter
  /-- What the write that has not returned was called with. -/
  offered : Option Bytes
  /-- The packets that the writer has assembled. -/
  packets : List Bytes
  /-- The bytes that the writer has told to be written. -/
  accepted : Bytes
  shut : Bool
  inFlight : Bytes
  inbound : Polled UInt8
  reader : DecryptedReader
  delivered : Bytes
  /-- The reader has told that there is no more. -/
  ended : Bool
  failed : Option ProtocolError

inductive TunnelEvent where
  | write (buf : Bytes) (grants : List Nat)
  | shutdown
  | arrive (count : Nat)
  | arriveEnd
  | read (capacity : Nat)

namespace Tunnel

def start (method : AeadMethod) (salt : Bytes) : Tunnel :=
  ⟨.new salt, none, [], [], false, [], .empty, .new method, [], false, none⟩

def wrote (tunnel : Tunnel) (buf : Bytes) (result : Written × Bytes × EncryptedWriter) :
    Tunnel :=
  let (written, taken, writer) := result
  let tunnel := { tunnel with writer := writer, inFlight := tunnel.inFlight ++ taken }
  match written with
  | .ready count => { tunnel with offered := none, accepted := tunnel.accepted ++ buf.take count }
  | .pending => { tunnel with offered := some buf }
  | .unexpectedEof => { tunnel with offered := some buf }

def pollWrite (method : AeadMethod) (tunnel : Tunnel) (buf : Bytes) (grants : List Nat) :
    Written × Tunnel :=
  if tunnel.shut then (.unexpectedEof, tunnel)
  else
    let buf := tunnel.offered.getD buf
    let packets := if tunnel.writer.state = .assemblePacket then
      tunnel.packets ++ [buf.take maxPacketSize] else tunnel.packets
    let result := tunnel.writer.pollWriteEncrypted method buf grants
    (result.1, { tunnel with packets := packets }.wrote buf result)

/-- The transport is shut down, or the stream dropped. What has not been written out is not
sent any more. -/
def shutdown (tunnel : Tunnel) : Tunnel := { tunnel with shut := true }

def arrive (tunnel : Tunnel) (count : Nat) : Tunnel :=
  { tunnel with
    inFlight := tunnel.inFlight.drop count
    inbound := tunnel.inbound.arrive (tunnel.inFlight.take count) }

def arriveEnd (tunnel : Tunnel) : Tunnel :=
  if tunnel.shut && tunnel.inFlight.isEmpty then { tunnel with inbound := tunnel.inbound.close }
  else tunnel

def read (method : AeadMethod) (repeated : Bytes → Bool) (tunnel : Tunnel) (capacity : Nat) :
    Tunnel :=
  if tunnel.failed.isSome then tunnel
  else
    let (result, reader, inbound) :=
      tunnel.reader.pollReadDecrypted method repeated capacity tunnel.inbound
    let tunnel := { tunnel with reader := reader, inbound := inbound }
    match result with
    | .ready data =>
        { tunnel with
          delivered := tunnel.delivered ++ data
          ended := tunnel.ended || (data.isEmpty && capacity != 0) }
    | .failed error => { tunnel with failed := some error }
    | _ => tunnel

def step (method : AeadMethod) (repeated : Bytes → Bool) (tunnel : Tunnel) :
    TunnelEvent → Tunnel
  | .write buf grants => (tunnel.pollWrite method buf grants).2
  | .shutdown => tunnel.shutdown
  | .arrive count => tunnel.arrive count
  | .arriveEnd => tunnel.arriveEnd
  | .read capacity => tunnel.read method repeated capacity

/-! ## What every event keeps -/

/-- No write is under way: everything that was assembled has been told to be written. -/
structure Idle (writer : EncryptedWriter) (packets : List Bytes) (accepted : Bytes) : Prop where
  state : writer.state = .assemblePacket
  accepted : accepted = packets.flatten
  written : packets ≠ [] → writer.buffer = []

/-- Of an assembled packet behind others, no more than the packet is unsent. -/
def Last (method : AeadMethod) (before : List Bytes) (packet unsent : Bytes) : Prop :=
  before ≠ [] → unsent.length ≤ 2 + method.tagLen + (packet.length + method.tagLen)

structure Busy (method : AeadMethod) (writer : EncryptedWriter) (packets : List Bytes)
    (accepted buf : Bytes) : Prop where
  state : ∃ pos, writer.state = .writing pos ∧ pos < writer.buffer.length
  packets : ∃ before, packets = before ++ [buf.take maxPacketSize] ∧ accepted = before.flatten ∧
    Last method before (buf.take maxPacketSize) writer.unsent

structure Holds (method : AeadMethod) (salt : Bytes) (tunnel : Tunnel) : Prop where
  reading : tunnel.failed = none → Reading method salt tunnel.packets tunnel.reader
    (tunnel.inbound.contents ++ (tunnel.inFlight ++ tunnel.writer.unsent)) tunnel.delivered
  cipher : tunnel.writer.cipher = ⟨salt, 2 * tunnel.packets.length⟩
  small : ∀ packet ∈ tunnel.packets, packet.length ≤ maxPacketSize
  idle : tunnel.offered = none → Idle tunnel.writer tunnel.packets tunnel.accepted
  busy : ∀ buf, tunnel.offered = some buf →
    Busy method tunnel.writer tunnel.packets tunnel.accepted buf
  ceased : tunnel.inbound.ended = true → tunnel.shut = true ∧ tunnel.inFlight = []
  failure : tunnel.failed ≠ none → tunnel.shut = true ∧
    (tunnel.packets = [] ∨ tunnel.offered ≠ none) ∧ tunnel.delivered <+: tunnel.accepted
  finished : tunnel.ended = true → tunnel.shut = true ∧ tunnel.delivered = tunnel.accepted

section Kept

variable {method : AeadMethod} {salt : Bytes} {repeated : Bytes → Bool} {tunnel : Tunnel}

theorem holds_start (saltLength : salt.length = method.saltLen) :
    Holds method salt (start method salt) := by
  refine ⟨fun _ => ?_, rfl, fun _ none => (by cases none),
    fun _ => ⟨rfl, rfl, fun some => absurd rfl some⟩, fun _ offered => (by cases offered),
    fun ceased => (by cases ceased), fun failed => absurd rfl failed,
    fun ended => (by cases ended)⟩
  change Reading method salt [] (DecryptedReader.new method) ([] ++ ([] ++ salt)) []
  unfold DecryptedReader.new
  split
  · exact Reading.waitSalt rfl (Nat.zero_le _) (List.append_nil salt).symm
  · have none : salt = [] := List.eq_nil_of_length_eq_zero (by omega)
    subst none
    exact @Reading.readLength method [] [] _ _ [] [] rfl rfl rfl
      (fun _ known => (by cases known)) (Nat.zero_le _) rfl

theorem take_length_take (buf : Bytes) (count : Nat) :
    buf.take (buf.take count).length = buf.take count := by
  rw [List.length_take, ← List.take_take, List.take_of_length_le (Nat.le_refl _)]

/-- How a write of some bytes comes out: it has taken a front of them, or the same bytes are to
be offered again. What holds is kept. -/
inductive Wrote (method : AeadMethod) (salt accepted : Bytes) (shut : Bool) (buf : Bytes) :
    Written × Tunnel → Prop
  | ready {after : Tunnel} (holds : Holds method salt after) (idle : after.offered = none)
      (more : after.accepted = accepted ++ buf.take maxPacketSize) (same : after.shut = shut) :
      Wrote method salt accepted shut buf (.ready (buf.take maxPacketSize).length, after)
  | stuck {result : Written} {after : Tunnel} (holds : Holds method salt after)
      (unready : result = .pending ∨ result = .unexpectedEof)
      (again : ∀ other, after.offered = some other → other = buf)
      (none : after.accepted = accepted) (same : after.shut = shut) :
      Wrote method salt accepted shut buf (result, after)

theorem Wrote.holds {accepted buf : Bytes} {shut : Bool} {result : Written × Tunnel}
    (wrote : Wrote method salt accepted shut buf result) : Holds method salt result.2 := by
  cases wrote with
  | ready holds => exact holds
  | stuck holds => exact holds

/-- An attempt to write out the last packet. -/
theorem wrote_writeOut {buf : Bytes} {before : List Bytes} {writer : EncryptedWriter} {pos : Nat}
    (inside : pos ≤ writer.buffer.length)
    (packets : tunnel.packets = before ++ [buf.take maxPacketSize])
    (accepted : tunnel.accepted = before.flatten)
    (last : Last method before (buf.take maxPacketSize) (writer.buffer.drop pos))
    (reading : tunnel.failed = none → Reading method salt tunnel.packets tunnel.reader
      (tunnel.inbound.contents ++ (tunnel.inFlight ++ writer.buffer.drop pos)) tunnel.delivered)
    (cipher : writer.cipher = ⟨salt, 2 * tunnel.packets.length⟩)
    (small : ∀ packet ∈ tunnel.packets, packet.length ≤ maxPacketSize)
    (going : tunnel.inbound.ended = false ∧ tunnel.failed = none ∧ tunnel.ended = false)
    (grants : List Nat) :
    let result := writer.writeOut pos (buf.take maxPacketSize).length grants
    Wrote method salt tunnel.accepted tunnel.shut buf (result.1, tunnel.wrote buf result) := by
  have outcome := EncryptedWriter.writeOut_spec inside (buf.take maxPacketSize).length grants
  generalize writer.writeOut pos (buf.take maxPacketSize).length grants = result at outcome
  have reading {taken : Bytes} {after : EncryptedWriter}
      (moved : taken ++ after.unsent = writer.buffer.drop pos) :
      Reading method salt tunnel.packets tunnel.reader
        (tunnel.inbound.contents ++ ((tunnel.inFlight ++ taken) ++ after.unsent))
        tunnel.delivered := by
    rw [List.append_assoc tunnel.inFlight, moved]
    exact reading going.2.1
  have never {P : Prop} {flag : Bool} (down : flag = false) : flag = true → P := fun up => by
    rw [down] at up
    cases up
  cases outcome with
  | done moved kept state empty =>
      have whole : tunnel.accepted ++ buf.take (buf.take maxPacketSize).length =
          tunnel.accepted ++ buf.take maxPacketSize := by rw [take_length_take]
      have all : tunnel.accepted ++ buf.take maxPacketSize = tunnel.packets.flatten := by
        rw [accepted, packets, List.flatten_concat]
      exact .ready ⟨fun _ => reading moved, kept.trans cipher, small,
        fun _ => ⟨state, whole.trans all, fun _ => empty⟩, fun _ other => (by cases other),
        never going.1, fun failed => absurd going.2.1 failed, never going.2.2⟩ rfl whole rfl
  | @stuck result taken after reached unready moved kept state early =>
      have shorter : Last method before (buf.take maxPacketSize) after.unsent := fun some => by
        refine le_trans ?_ (last some)
        rw [← moved, List.length_append]
        exact Nat.le_add_left _ _
      have holds : Holds method salt
          { tunnel with
            writer := after
            inFlight := tunnel.inFlight ++ taken
            offered := some buf } := by
        refine ⟨fun _ => reading moved, kept.trans cipher, small, fun other => (by cases other), ?_,
          never going.1, fun failed => absurd going.2.1 failed, never going.2.2⟩
        intro other same
        cases same
        exact ⟨⟨reached, state, early⟩, before, packets, accepted, shorter⟩
      have again (other : Bytes) (same : some buf = some other) : other = buf :=
        (Option.some.inj same).symm
      rcases unready with rfl | rfl
      · exact .stuck holds (Or.inl rfl) again rfl rfl
      · exact .stuck holds (Or.inr rfl) again rfl rfl

/-- As long as the transport is not shut down, nothing is over. -/
theorem Holds.going (holds : Holds method salt tunnel) (opened : tunnel.shut = false) :
    tunnel.inbound.ended = false ∧ tunnel.failed = none ∧ tunnel.ended = false := by
  refine ⟨?_, ?_, ?_⟩
  · by_contra ceased
    rw [Bool.not_eq_false] at ceased
    rw [(holds.ceased ceased).1] at opened
    cases opened
  · by_contra failed
    rw [(holds.failure failed).1] at opened
    cases opened
  · by_contra ended
    rw [Bool.not_eq_false] at ended
    rw [(holds.finished ended).1] at opened
    cases opened

theorem assemble_eq {writer : EncryptedWriter} {nonce : Nat}
    (cipher : writer.cipher = ⟨salt, nonce⟩) (buf : Bytes) :
    (writer.assemble method buf).buffer =
        writer.buffer ++ sealPacket method salt nonce buf ∧
      (writer.assemble method buf).cipher = ⟨salt, nonce + 2⟩ := by
  simp only [EncryptedWriter.assemble, Cipher.encryptPacket, cipher, sealPacket,
    List.append_assoc]
  exact ⟨trivial, trivial⟩

theorem getD_of_same {offered : Option Bytes} {buf : Bytes}
    (same : ∀ other, offered = some other → other = buf) : offered.getD buf = buf := by
  cases offered with
  | none => rfl
  | some other => exact same other rfl

/-- Whoever writes offers the same bytes until they have been taken. -/
theorem wrote_pollWrite (holds : Holds method salt tunnel) (buf : Bytes) (grants : List Nat) :
    Wrote method salt tunnel.accepted tunnel.shut (tunnel.offered.getD buf)
      (tunnel.pollWrite method buf grants) := by
  unfold pollWrite
  split
  · refine .stuck holds (Or.inr rfl) (fun other present => ?_) rfl rfl
    rw [present, Option.getD_some]
  · rename_i opened
    have going := holds.going (Bool.eq_false_iff.mpr opened)
    cases offer : tunnel.offered with
    | none =>
        have idle := holds.idle offer
        obtain ⟨buffer, cipher⟩ :=
          @assemble_eq method salt tunnel.writer _ holds.cipher (buf.take maxPacketSize)
        simp only [idle.state, EncryptedWriter.pollWriteEncrypted, if_true, Option.getD_none]
        refine @wrote_writeOut method salt
          { tunnel with packets := tunnel.packets ++ [buf.take maxPacketSize] } buf tunnel.packets
          (tunnel.writer.assemble method (buf.take maxPacketSize)) 0 (Nat.zero_le _) rfl
          idle.accepted (fun some => ?_) (fun _ => ?_) ?_ ?_ going grants
        · rw [List.drop_zero, buffer, idle.written some, List.nil_append, length_sealPacket]
        · have longer := reading_append (buf.take maxPacketSize) (holds.reading going.2.1)
          have rest : tunnel.writer.unsent = tunnel.writer.buffer := by
            rw [EncryptedWriter.unsent, idle.state]
          rw [rest, List.append_assoc, List.append_assoc, ← buffer] at longer
          exact longer
        · rw [cipher, List.length_append]
          rfl
        · intro packet member
          rcases List.mem_append.mp member with earlier | last
          · exact holds.small packet earlier
          · rw [List.mem_singleton.mp last]
            exact List.length_take_le _ _
    | some offered =>
        obtain ⟨⟨pos, state, early⟩, before, packets, accepted, last⟩ := holds.busy offered offer
        have rest : tunnel.writer.unsent = tunnel.writer.buffer.drop pos := by
          rw [EncryptedWriter.unsent, state]
        simp only [state, EncryptedWriter.pollWriteEncrypted, Option.getD_some]
        exact wrote_writeOut early.le packets accepted (rest ▸ last)
          (fun _ => rest ▸ holds.reading going.2.1) holds.cipher holds.small going grants

theorem holds_shutdown (holds : Holds method salt tunnel) : Holds method salt tunnel.shutdown :=
  ⟨holds.reading, holds.cipher, holds.small, holds.idle, holds.busy,
    fun ceased => ⟨rfl, (holds.ceased ceased).2⟩, fun failed => ⟨rfl, (holds.failure failed).2⟩,
    fun ended => ⟨rfl, (holds.finished ended).2⟩⟩

theorem holds_arrive (holds : Holds method salt tunnel) (count : Nat) :
    Holds method salt (tunnel.arrive count) := by
  refine ⟨fun sound => ?_, holds.cipher, holds.small, holds.idle, holds.busy, ?_, holds.failure,
    holds.finished⟩
  · have moved : (tunnel.inbound.arrive (tunnel.inFlight.take count)).contents ++
        (tunnel.inFlight.drop count ++ tunnel.writer.unsent) =
        tunnel.inbound.contents ++ (tunnel.inFlight ++ tunnel.writer.unsent) := by
      rw [Polled.contents_arrive, List.append_assoc, ← List.append_assoc (tunnel.inFlight.take _),
        List.take_append_drop]
    exact moved ▸ holds.reading sound
  · intro ceased
    have before : tunnel.inbound.ended = true := by
      rw [← Polled.ended_arrive tunnel.inbound (tunnel.inFlight.take count)]
      exact ceased
    obtain ⟨shut, none⟩ := holds.ceased before
    refine ⟨shut, ?_⟩
    change tunnel.inFlight.drop count = []
    rw [none, List.drop_nil]

theorem holds_arriveEnd (holds : Holds method salt tunnel) :
    Holds method salt tunnel.arriveEnd := by
  unfold arriveEnd
  split
  · rename_i last
    rw [Bool.and_eq_true, List.isEmpty_iff] at last
    exact ⟨holds.reading, holds.cipher, holds.small, holds.idle, holds.busy, fun _ => last,
      holds.failure, holds.finished⟩
  · exact holds

/-- When the end of the stream has come in, nothing is missing, unless nothing was written or
a write was cut off. -/
theorem Holds.nothing_beyond (holds : Holds method salt tunnel)
    (ceased : tunnel.inbound.ended = true) (some : tunnel.packets ≠ [])
    (idle : tunnel.offered = none) : tunnel.inFlight ++ tunnel.writer.unsent = [] := by
  obtain ⟨_, none⟩ := holds.ceased ceased
  have idle := holds.idle idle
  rw [none, EncryptedWriter.unsent, idle.state]
  exact idle.written some

theorem Busy.unsent_ne_nil {writer : EncryptedWriter} {packets : List Bytes}
    {accepted buf : Bytes} (busy : Busy method writer packets accepted buf) :
    writer.unsent ≠ [] := by
  obtain ⟨pos, state, early⟩ := busy.state
  rw [EncryptedWriter.unsent, state, Ne, List.drop_eq_nil_iff]
  omega

theorem Holds.within_accepted (holds : Holds method salt tunnel) {reader : DecryptedReader}
    {left delivered : Bytes}
    (reading : Reading method salt tunnel.packets reader (left ++ tunnel.writer.unsent)
      delivered) : delivered <+: tunnel.accepted := by
  cases offer : tunnel.offered with
  | none =>
      rw [(holds.idle offer).accepted]
      exact delivered_front reading
  | some buf =>
      have busy := holds.busy buf offer
      obtain ⟨before, packets, accepted, _⟩ := busy.packets
      rw [packets] at reading
      rw [accepted]
      apply delivered_front_of_left reading
      exact fun none => busy.unsent_ne_nil (List.append_eq_nil_iff.mp none).2

/-- An end between two packets comes behind all that has been told to be written. -/
theorem Holds.delivered_of_boundary (holds : Holds method salt tunnel)
    (arrived : tunnel.inFlight = [])
    (boundary : AtBoundary method salt tunnel.packets tunnel.delivered
      (tunnel.inFlight ++ tunnel.writer.unsent)) : tunnel.delivered = tunnel.accepted := by
  rw [arrived, List.nil_append] at boundary
  cases offer : tunnel.offered with
  | none =>
      have idle := holds.idle offer
      rw [idle.accepted]
      by_cases none : tunnel.packets = []
      · obtain ⟨done, rest, split, front, _⟩ := boundary
        rw [none] at split
        rw [front, none, (List.append_eq_nil_iff.mp split.symm).1]
      · rw [EncryptedWriter.unsent, idle.state] at boundary
        dsimp only at boundary
        rw [idle.written none] at boundary
        exact boundary.whole
  | some buf =>
      have busy := holds.busy buf offer
      obtain ⟨before, packets, accepted, last⟩ := busy.packets
      rw [packets] at boundary
      rw [accepted]
      exact boundary.all_but_last busy.unsent_ne_nil last

theorem holds_read (saltLength : salt.length = method.saltLen) (fresh : repeated salt = false)
    (holds : Holds method salt tunnel) (capacity : Nat) :
    Holds method salt (tunnel.read method repeated capacity) := by
  unfold read
  cases sound : tunnel.failed with
  | some error => simpa [sound] using holds
  | none =>
      have fine := pollReadDecrypted_fine saltLength holds.small fresh capacity
        (holds.reading sound)
      simp only [Option.isSome_none, Bool.false_eq_true, if_false]
      generalize tunnel.reader.pollReadDecrypted method repeated capacity tunnel.inbound = result
        at fine
      obtain ⟨outcome, reader, inbound⟩ := result
      obtain ⟨kept, fine⟩ := fine
      dsimp only at kept
      have ceased : inbound.ended = true → tunnel.shut = true ∧ tunnel.inFlight = [] :=
        fun ended => holds.ceased (kept ▸ ended)
      cases outcome with
      | again => exact absurd fine.2 (Nat.not_lt_zero _)
      | pending =>
          exact ⟨fun _ => fine.1, holds.cipher, holds.small, holds.idle, holds.busy, ceased,
            fun failed => absurd rfl failed, holds.finished⟩
      | ready data =>
          refine ⟨fun _ => fine.1, holds.cipher, holds.small, holds.idle, holds.busy, ceased,
            fun failed => absurd rfl failed, ?_⟩
          intro told
          change (tunnel.ended || (data.isEmpty && capacity != 0)) = true at told
          change tunnel.shut = true ∧ tunnel.delivered ++ data = tunnel.accepted
          rw [Bool.or_eq_true, Bool.and_eq_true, List.isEmpty_iff, bne_iff_ne] at told
          rcases told with before | ⟨rfl, room⟩
          · obtain ⟨shut, whole⟩ := holds.finished before
            have reading := fine.1
            rw [← List.append_assoc] at reading
            refine ⟨shut, (holds.within_accepted reading).eq_of_length_le ?_⟩
            rw [← whole, List.length_append]
            exact Nat.le_add_right _ _
          · obtain ⟨ended, boundary⟩ := (fine.2 rfl).resolve_left room
            obtain ⟨shut, arrived⟩ := holds.ceased ended
            rw [List.append_nil]
            exact ⟨shut, holds.delivered_of_boundary arrived boundary⟩
      | failed error =>
          obtain ⟨ended, beyond⟩ := fine
          have cut : tunnel.packets = [] ∨ tunnel.offered ≠ .none := by
            by_contra whole
            rw [not_or, not_not] at whole
            exact beyond (holds.nothing_beyond ended whole.1 whole.2)
          have reading := holds.reading sound
          rw [← List.append_assoc] at reading
          exact ⟨fun failed => (by cases failed), holds.cipher, holds.small, holds.idle,
            holds.busy, ceased,
            fun _ => ⟨(holds.ceased ended).1, cut, holds.within_accepted reading⟩,
            holds.finished⟩

theorem holds_step (saltLength : salt.length = method.saltLen) (fresh : repeated salt = false)
    (event : TunnelEvent) (holds : Holds method salt tunnel) :
    Holds method salt (tunnel.step method repeated event) := by
  cases event with
  | write buf grants => exact (wrote_pollWrite holds buf grants).holds
  | shutdown => exact holds_shutdown holds
  | arrive count => exact holds_arrive holds count
  | arriveEnd => exact holds_arriveEnd holds
  | read capacity => exact holds_read saltLength fresh holds capacity

theorem holds_run (saltLength : salt.length = method.saltLen) (fresh : repeated salt = false)
    (events : List TunnelEvent) :
    Holds method salt (Machine.run (step method repeated) (start method salt) events) :=
  Machine.run_invariant (fun _ event holds => holds_step saltLength fresh event holds)
    (holds_start saltLength) events

theorem Holds.delivered_within_accepted (holds : Holds method salt tunnel) :
    tunnel.delivered <+: tunnel.accepted := by
  cases sound : tunnel.failed with
  | some error => exact (holds.failure (by simp [sound])).2.2
  | none =>
      have reading := holds.reading sound
      rw [← List.append_assoc] at reading
      exact holds.within_accepted reading

/-- Whatever is written, however the transport takes and brings the bytes, and whenever it is
read or shut down: what is delivered is the front of what has been told to be written, the
end is told only when all of it has been delivered, and reading fails only if the transport
was shut down before anything was written or while a write had not returned. -/
theorem delivered_in_order (saltLength : salt.length = method.saltLen)
    (fresh : repeated salt = false) (events : List TunnelEvent) :
    let tunnel := Machine.run (step method repeated) (start method salt) events
    tunnel.delivered <+: tunnel.accepted ∧
      (tunnel.ended = true → tunnel.delivered = tunnel.accepted) ∧
      (tunnel.failed ≠ none →
        tunnel.shut = true ∧ (tunnel.packets = [] ∨ tunnel.offered ≠ none)) := by
  intro tunnel
  have holds : Holds method salt tunnel := holds_run saltLength fresh events
  exact ⟨holds.delivered_within_accepted, fun told => (holds.finished told).2,
    fun failed => ⟨(holds.failure failed).1, (holds.failure failed).2.1⟩⟩

/-- If nothing is on its way, a read with room delivers something or everything has been
delivered. -/
theorem Holds.progress (saltLength : salt.length = method.saltLen) (fresh : repeated salt = false)
    (holds : Holds method salt tunnel) (sound : tunnel.failed = none)
    (idle : tunnel.offered = none) (some : tunnel.packets ≠ []) (arrived : tunnel.inFlight = [])
    {capacity : Nat} (room : 0 < capacity) :
    tunnel.delivered = tunnel.accepted ∨
      tunnel.delivered.length < (tunnel.read method repeated capacity).delivered.length := by
  have quiet := holds.idle idle
  have beyond : tunnel.inFlight ++ tunnel.writer.unsent = [] := by
    rw [arrived, EncryptedWriter.unsent, quiet.state]
    exact quiet.written some
  have fine := pollReadDecrypted_fine saltLength holds.small fresh capacity (holds.reading sound)
  unfold read
  simp only [sound, Option.isSome_none, Bool.false_eq_true, if_false]
  generalize tunnel.reader.pollReadDecrypted method repeated capacity tunnel.inbound = result
    at fine
  obtain ⟨outcome, reader, inbound⟩ := result
  obtain ⟨_, fine⟩ := fine
  cases outcome with
  | again => exact absurd fine.2 (Nat.not_lt_zero _)
  | pending => exact Or.inl ((fine.2 beyond).trans quiet.accepted.symm)
  | ready data =>
      by_cases none : data = []
      · have boundary := ((fine.2 none).resolve_left (Nat.pos_iff_ne_zero.mp room)).2
        rw [beyond] at boundary
        exact Or.inl (boundary.whole.trans quiet.accepted.symm)
      · right
        change tunnel.delivered.length < (tunnel.delivered ++ data).length
        have := List.length_pos_iff.mpr none
        rw [List.length_append]
        omega
  | failed error => exact absurd beyond fine.2

theorem read_frame (method : AeadMethod) (repeated : Bytes → Bool) (tunnel : Tunnel)
    (capacity : Nat) :
    (tunnel.read method repeated capacity).offered = tunnel.offered ∧
      (tunnel.read method repeated capacity).accepted = tunnel.accepted ∧
      (tunnel.read method repeated capacity).shut = tunnel.shut ∧
      (tunnel.read method repeated capacity).inFlight = tunnel.inFlight ∧
      tunnel.delivered <+: (tunnel.read method repeated capacity).delivered := by
  unfold read
  split
  · exact ⟨rfl, rfl, rfl, rfl, List.prefix_rfl⟩
  · generalize tunnel.reader.pollReadDecrypted method repeated capacity tunnel.inbound = result
    obtain ⟨outcome, reader, inbound⟩ := result
    cases outcome with
    | ready data => exact ⟨rfl, rfl, rfl, rfl, List.prefix_append _ _⟩
    | _ => exact ⟨rfl, rfl, rfl, rfl, List.prefix_rfl⟩

/-- Reads go on delivering until everything has been delivered. -/
theorem Holds.reads_deliver (saltLength : salt.length = method.saltLen)
    (fresh : repeated salt = false) (holds : Holds method salt tunnel)
    (idle : tunnel.offered = none) (arrived : tunnel.inFlight = []) {capacity : Nat}
    (room : 0 < capacity) (reads : Nat) (enough : tunnel.accepted.length ≤
      tunnel.delivered.length + reads) :
    (Machine.run (step method repeated) tunnel
      (List.replicate reads (.read capacity))).delivered = tunnel.accepted := by
  induction reads generalizing tunnel with
  | zero => exact holds.delivered_within_accepted.eq_of_length_le enough
  | succ reads ih =>
      obtain ⟨offered, accepted, _, inFlight, grown⟩ :=
        read_frame method repeated tunnel capacity
      have next := holds_read saltLength fresh holds capacity
      rw [← accepted]
      apply ih next (offered.trans idle) (inFlight.trans arrived)
      rw [accepted]
      by_cases none : tunnel.packets = []
      · have nothing : tunnel.accepted = [] := by
          rw [(holds.idle idle).accepted, none]
          rfl
        rw [nothing]
        exact Nat.zero_le _
      · have sound : tunnel.failed = .none := by
          by_contra failed
          exact (holds.failure failed).2.1.elim none (fun busy => busy idle)
        rcases holds.progress saltLength fresh sound idle none arrived room with whole | more
        · have := grown.length_le
          rw [whole] at this
          omega
        · omega

/-- From every state in which no write is under way: when what is in flight has arrived,
reads deliver everything that has been told to be written. -/
theorem everything_is_delivered (saltLength : salt.length = method.saltLen)
    (fresh : repeated salt = false) (events : List TunnelEvent) {capacity : Nat}
    (room : 0 < capacity)
    (idle : (Machine.run (step method repeated) (start method salt) events).offered = none) :
    let tunnel := Machine.run (step method repeated) (start method salt) events
    (Machine.run (step method repeated) tunnel (.arrive tunnel.inFlight.length ::
      List.replicate tunnel.accepted.length (.read capacity))).delivered = tunnel.accepted := by
  intro tunnel
  have holds : Holds method salt tunnel := holds_run saltLength fresh events
  have arrived : (tunnel.arrive tunnel.inFlight.length).inFlight = [] := List.drop_length
  exact (holds_arrive holds _).reads_deliver saltLength fresh idle arrived room _
    (Nat.le_add_left _ _)

end Kept

def openRun (events : List TunnelEvent) : Tunnel :=
  Machine.run (step openMethod fun _ => false) (start openMethod [5]) events

/-- A write that the transport takes in two parts, and reads of single bytes in between. The
transport is shut down within the second packet. -/
def haltingEvents : List TunnelEvent :=
  [.write [7, 8, 9] [4], .arrive 3, .read 1, .arrive 9, .read 1, .write [] [20], .arrive 20,
    .read 1, .write [4] [3], .shutdown, .arrive 3, .arriveEnd, .read 9, .read 1]

theorem delivered_in_order_halting :
    (openRun haltingEvents).delivered = [7, 8, 9] ∧
      (openRun haltingEvents).failed = some .unexpectedEof ∧
      (openRun haltingEvents).delivered <+: (openRun haltingEvents).accepted ∧
      (openRun haltingEvents).shut = true :=
  have halting := @delivered_in_order openMethod [5] (fun _ => false) rfl rfl haltingEvents
  have failed : (openRun haltingEvents).failed = some .unexpectedEof := by decide +kernel
  ⟨by decide +kernel, failed, halting.1,
    (halting.2.2 fun sound => by cases failed.symm.trans sound).1⟩

theorem everything_is_delivered_halting :
    let tunnel := openRun [.write [7, 8, 9] [4], .arrive 3, .write [] [20]]
    (Machine.run (step openMethod fun _ => false) tunnel (.arrive tunnel.inFlight.length ::
      List.replicate tunnel.accepted.length (.read 1))).delivered = tunnel.accepted :=
  @everything_is_delivered openMethod [5] (fun _ => false) rfl rfl
    [.write [7, 8, 9] [4], .arrive 3, .write [] [20]] 1 (by decide) (by decide +kernel)

end Tunnel

end AlienConnection.Native.Aead
