import AlienConnection.Native.AeadTunnel
import AlienConnection.Native.Socks5

/-!
# A connection through the server

What an application sends goes through the stream of the proxy's client, which puts the
target's address in front of the first bytes, into an encrypted stream, and comes out at the
server, which reads the address and passes on the rest. The model follows one direction of
`establish_tcp_tunnel`: the first read with its time limit, the first write, and then copying
until the application closes. One poll makes one read or one write. An error, also one of the
other direction, may come at any moment; the task then returns and its streams are dropped,
which closes the transport wherever it stands.
-/

namespace AlienConnection.Native

open AlienConnection.Library Aead

/-- A target whose address can be told: the name of a host has at most 255 bytes. -/
structure TargetAddr where
  address : Address
  written : Bytes
  wrote : address.writeToBuf = some written
  deriving DecidableEq

/-- The address and the first bytes go out together. Methods of 2022 put padding between
them, which is there even if it is empty. -/
def makeFirstPacketBuffer (padding : Option Bytes) (target : TargetAddr) (buf : Bytes) : Bytes :=
  target.written ++ (match padding with
    | some padding => Bytes.bigEndian 2 padding.length ++ padding
    | none => []) ++ buf

namespace ProxyClientStream

inductive WriteState where
  | connect (target : TargetAddr)
  | connecting (buffer : Bytes)
  | connected
  deriving DecidableEq

end ProxyClientStream

open ProxyClientStream (WriteState)

structure ProxyClientStream where
  writerState : WriteState
  stream : Tunnel

namespace ProxyClientStream

/-- The first packet is written. How many bytes the stream has taken of it is not looked at:
the write tells that all of `buf` has been written. -/
def sendFirst (method : AeadMethod) (client : ProxyClientStream) (buffer buf : Bytes)
    (grants : List Nat) : Written × ProxyClientStream :=
  match client.stream.pollWrite method buffer grants with
  | (.ready _, stream) => (.ready buf.length, ⟨.connected, stream⟩)
  | (result, stream) => (result, ⟨.connecting buffer, stream⟩)

def pollWrite (method : AeadMethod) (client : ProxyClientStream) (buf : Bytes)
    (grants : List Nat) : Written × ProxyClientStream :=
  match client.writerState with
  | .connect target =>
      client.sendFirst method (makeFirstPacketBuffer none target buf) buf grants
  | .connecting buffer => client.sendFirst method buffer buf grants
  | .connected =>
      let (result, stream) := client.stream.pollWrite method buf grants
      (result, ⟨.connected, stream⟩)

end ProxyClientStream

inductive TunnelStage where
  /-- Waiting for the first bytes, for half a second at most. -/
  | start
  | first (left : Bytes)
  | handshake
  | copy (left : Bytes) (readDone : Bool)
  | closed
  /-- The task has returned before everything was written. -/
  | dropped (left : Bytes)
  deriving DecidableEq

/-- What has been read from the application and not been told to be written. -/
def TunnelStage.left : TunnelStage → Bytes
  | .first left => left
  | .copy left _ => left
  | .dropped left => left
  | .start => []
  | .handshake => []
  | .closed => []

structure Uplink where
  /-- Everything that the application has sent. -/
  sent : Bytes
  plain : Polled UInt8
  stage : TunnelStage
  shadow : ProxyClientStream
  /-- What the stream has told to be written. -/
  told : Bytes

inductive UplinkEvent where
  | send (piece : Bytes)
  | close
  | timeout
  | poll (grants : List Nat)
  | abort
  | arrive (count : Nat)
  | arriveEnd
  | read (capacity : Nat)

namespace Uplink

def firstSize : Nat := 8192

def plainReadBufferSize : Nat := maxPacketSize

def start (method : AeadMethod) (salt : Bytes) (target : TargetAddr) : Uplink :=
  ⟨[], .empty, .start, ⟨.connect target, Tunnel.start method salt⟩, []⟩

def onStream (uplink : Uplink) (change : Tunnel → Tunnel) : Uplink :=
  { uplink with shadow := ⟨uplink.shadow.writerState, change uplink.shadow.stream⟩ }

def drop (uplink : Uplink) (left : Bytes) : Uplink :=
  { uplink.onStream Tunnel.shutdown with stage := .dropped left }

/-- A read or a write fails, in this direction or the other one. A direction that is done has
closed the transport already. -/
def abort (uplink : Uplink) : Uplink :=
  match uplink.stage with
  | .closed => uplink
  | stage => uplink.drop stage.left

/-- Write what is left, and go on at `next` with what is left then. If something is left, a
write of nothing is an error. -/
def writeLeft (method : AeadMethod) (uplink : Uplink) (left : Bytes) (grants : List Nat)
    (next : Bytes → TunnelStage) : Uplink :=
  match uplink.shadow.pollWrite method left grants with
  | (.ready count, shadow) =>
      if count = 0 ∧ left ≠ [] then { uplink with shadow := shadow }.drop left
      else
        { uplink with
          shadow := shadow
          stage := next (left.drop count)
          told := uplink.told ++ left.take count }
  | (.pending, shadow) => { uplink with shadow := shadow }
  | (.unexpectedEof, shadow) => { uplink with shadow := shadow }.drop left

/-- One step of the task that serves the connection. If the application closes before it has
sent anything, the task returns. -/
def poll (method : AeadMethod) (uplink : Uplink) (grants : List Nat) : Uplink :=
  match uplink.stage with
  | .start =>
      match uplink.plain.read firstSize with
      | none => uplink
      | some ([], _) => uplink.drop []
      | some (data, plain) => { uplink with plain := plain, stage := .first data }
  | .first [] => { uplink with stage := .copy [] false }
  | .first left => uplink.writeLeft method left grants .first
  | .handshake => uplink.writeLeft method [] grants fun _ => .copy [] false
  | .copy [] false =>
      match uplink.plain.read plainReadBufferSize with
      | none => uplink
      | some ([], _) => { uplink with stage := .copy [] true }
      | some (data, plain) => { uplink with plain := plain, stage := .copy data false }
  | .copy [] true => { uplink.onStream Tunnel.shutdown with stage := .closed }
  | .copy left readDone => uplink.writeLeft method left grants (.copy · readDone)
  | .closed => uplink
  | .dropped _ => uplink

def send (uplink : Uplink) (piece : Bytes) : Uplink :=
  if uplink.plain.ended then uplink
  else { uplink with sent := uplink.sent ++ piece, plain := uplink.plain.arrive piece }

def timeout (uplink : Uplink) : Uplink :=
  match uplink.stage with
  | .start => { uplink with stage := .handshake }
  | _ => uplink

def step (method : AeadMethod) (repeated : Bytes → Bool) (uplink : Uplink) :
    UplinkEvent → Uplink
  | .send piece => uplink.send piece
  | .close => { uplink with plain := uplink.plain.close }
  | .timeout => uplink.timeout
  | .poll grants => uplink.poll method grants
  | .abort => uplink.abort
  | .arrive count => uplink.onStream (·.arrive count)
  | .arriveEnd => uplink.onStream Tunnel.arriveEnd
  | .read capacity => uplink.onStream (·.read method repeated capacity)

/-! ## How far the connection has come -/

def Opening : TunnelStage → Prop
  | .first left => left ≠ [] ∧ left.length ≤ firstSize
  | .handshake => True
  | _ => False

def Begun : TunnelStage → Prop
  | .start => False
  | .handshake => False
  | _ => True

/-- The stages at which the transport may be shut down. -/
def Over : TunnelStage → Prop
  | .closed => True
  | .dropped _ => True
  | _ => False

def Drained : TunnelStage → Prop
  | .copy _ readDone => readDone = true
  | .closed => True
  | _ => False

/-- The first packet of the stream holds the address and the first bytes, and the stream is
offered the same bytes until it has taken them. -/
inductive Standing (target : TargetAddr) :
    WriteState → TunnelStage → Option Bytes → Bytes → Bytes → Prop
  | idle : Standing target (.connect target) .start none [] []
  | opening {stage : TunnelStage} (early : Opening stage) :
      Standing target (.connect target) stage none [] []
  | sending {stage : TunnelStage} {offered : Option Bytes} (early : Opening stage)
      (same : ∀ other, offered = some other → other = target.written ++ stage.left) :
      Standing target (.connecting (target.written ++ stage.left)) stage offered [] []
  | lost {state : WriteState} {left : Bytes} {offered : Option Bytes} :
      Standing target state (.dropped left) offered [] []
  | connected {stage : TunnelStage} {offered : Option Bytes} {accepted told : Bytes}
      (begun : Begun stage)
      (same : ∀ other, offered = some other → other = stage.left ∧ stage.left ≠ [])
      (whole : accepted = target.written ++ told) :
      Standing target .connected stage offered accepted told

structure Holds (method : AeadMethod) (salt : Bytes) (target : TargetAddr) (uplink : Uplink) :
    Prop where
  stream : Tunnel.Holds method salt uplink.shadow.stream
  standing : Standing target uplink.shadow.writerState uplink.stage uplink.shadow.stream.offered
    uplink.shadow.stream.accepted uplink.told
  bytes : uplink.told ++ (uplink.stage.left ++ uplink.plain.contents) = uplink.sent
  drained : Drained uplink.stage → uplink.plain.contents = [] ∧ uplink.plain.ended = true
  shut : uplink.shadow.stream.shut = true → Over uplink.stage

section Kept

variable {method : AeadMethod} {salt : Bytes} {repeated : Bytes → Bool} {target : TargetAddr}
  {uplink : Uplink}

section Standing

variable {state : WriteState} {offered : Option Bytes} {accepted told : Bytes}

theorem Standing.at_start (standing : Standing target state .start offered accepted told) :
    state = .connect target ∧ offered = none ∧ accepted = [] ∧ told = [] := by
  cases standing with
  | idle => exact ⟨rfl, rfl, rfl, rfl⟩
  | opening early => exact early.elim
  | sending early _ => exact early.elim
  | connected begun _ _ => exact begun.elim

/-- Whoever has nothing left of the first bytes, or of those it copies, has a stream that is
connected and idle. -/
theorem Standing.at_copy {stage : TunnelStage}
    (kind : stage = .first [] ∨ ∃ readDone, stage = .copy [] readDone)
    (standing : Standing target state stage offered accepted told) :
    state = .connected ∧ offered = none ∧ accepted = target.written ++ told := by
  have late : ¬ Opening stage := by
    rcases kind with rfl | ⟨_, rfl⟩
    · exact fun early => early.1 rfl
    · exact id
  have nothing : stage.left = [] := by
    rcases kind with rfl | ⟨_, rfl⟩ <;> rfl
  cases standing with
  | idle => rcases kind with other | ⟨_, other⟩ <;> cases other
  | opening early => exact absurd early late
  | sending early _ => exact absurd early late
  | lost => rcases kind with other | ⟨_, other⟩ <;> cases other
  | connected _ same whole =>
      refine ⟨rfl, ?_, whole⟩
      cases offered with
      | none => rfl
      | some other => exact absurd nothing (same other rfl).2

/-- Whatever has been written, a stream may be dropped. -/
theorem Standing.drop {stage : TunnelStage}
    (standing : Standing target state stage offered accepted told) :
    Standing target state (.dropped stage.left) offered accepted told := by
  cases standing with
  | connected _ same whole => exact .connected trivial same whole
  | _ => exact .lost

end Standing

theorem holds_start (saltLength : salt.length = method.saltLen) :
    Holds method salt target (start method salt target) :=
  ⟨Tunnel.holds_start saltLength, .idle, rfl, False.elim, fun shut => (by cases shut)⟩

theorem Holds.opened (holds : Holds method salt target uplink) (going : ¬ Over uplink.stage) :
    uplink.shadow.stream.shut = false := by
  cases shut : uplink.shadow.stream.shut with
  | false => rfl
  | true => exact absurd (holds.shut shut) going

theorem Holds.drop (holds : Holds method salt target uplink) {left : Bytes}
    (same : uplink.stage.left = left) : Holds method salt target (uplink.drop left) := by
  subst same
  exact ⟨Tunnel.holds_shutdown holds.stream, holds.standing.drop, holds.bytes, False.elim,
    fun _ => trivial⟩

theorem holds_abort (holds : Holds method salt target uplink) :
    Holds method salt target uplink.abort := by
  unfold abort
  split
  · exact holds
  · exact holds.drop rfl

/-- A step that leaves the stream alone. -/
theorem Holds.moved {plain : Polled UInt8} {stage : TunnelStage}
    (holds : Holds method salt target uplink) (going : ¬ Over uplink.stage)
    (standing : Standing target uplink.shadow.writerState stage uplink.shadow.stream.offered
      uplink.shadow.stream.accepted uplink.told)
    (bytes : stage.left ++ plain.contents = uplink.stage.left ++ uplink.plain.contents)
    (drained : Drained stage → plain.contents = [] ∧ plain.ended = true) :
    Holds method salt target { uplink with plain := plain, stage := stage } := by
  refine ⟨holds.stream, standing, ?_, drained, fun shut => absurd (holds.shut shut) going⟩
  rw [← holds.bytes, ← bytes]

/-! ### Writing -/

/-- The stages that write: what they write, and where they go on. -/
inductive Writes : TunnelStage → Bytes → (Bytes → TunnelStage) → Prop
  | first {left : Bytes} (some : left ≠ []) : Writes (.first left) left .first
  | handshake : Writes .handshake [] fun _ => .copy [] false
  | copy {left : Bytes} {readDone : Bool} (some : left ≠ []) :
      Writes (.copy left readDone) left (.copy · readDone)

theorem Writes.left_eq {stage : TunnelStage} {left : Bytes} {next : Bytes → TunnelStage}
    (writes : Writes stage left next) :
    stage.left = left ∧ ∀ count, (next (left.drop count)).left = left.drop count := by
  cases writes with
  | first _ => exact ⟨rfl, fun _ => rfl⟩
  | handshake => exact ⟨rfl, fun _ => List.drop_nil.symm⟩
  | copy _ => exact ⟨rfl, fun _ => rfl⟩

theorem Writes.next_spec {stage : TunnelStage} {left : Bytes} {next : Bytes → TunnelStage}
    (writes : Writes stage left next) (count : Nat) :
    Begun (next (left.drop count)) ∧ (Drained (next (left.drop count)) → Drained stage) := by
  cases writes with
  | first _ => exact ⟨trivial, id⟩
  | handshake => exact ⟨trivial, fun done => (by cases done)⟩
  | copy _ => exact ⟨trivial, id⟩

theorem Writes.not_over {stage : TunnelStage} {left : Bytes} {next : Bytes → TunnelStage}
    (writes : Writes stage left next) : ¬ Over stage := by
  cases writes <;> exact id

/-- The first packet fits: nothing of it is left out. -/
theorem first_fits {stage : TunnelStage} (early : Opening stage) :
    (target.written ++ stage.left).take maxPacketSize = target.written ++ stage.left := by
  obtain ⟨_, bounded⟩ := Address.length_writeToBuf target.wrote
  have short : stage.left.length ≤ firstSize := by
    cases stage with
    | first _ => exact early.2
    | handshake => exact Nat.zero_le _
    | _ => exact early.elim
  apply List.take_of_length_le
  simp only [Address.maxSerializedLen] at bounded
  simp only [firstSize] at short
  simp only [List.length_append, maxPacketSize]
  omega

inductive Wrote (method : AeadMethod) (salt : Bytes) (target : TargetAddr) (shut : Bool)
    (stage : TunnelStage) (left told : Bytes) : Written × ProxyClientStream → Prop
  | ready {count : Nat} {stream : Tunnel} (holds : Tunnel.Holds method salt stream)
      (same : stream.shut = shut) (more : left ≠ [] → count ≠ 0) (idle : stream.offered = none)
      (whole : stream.accepted = target.written ++ (told ++ left.take count)) :
      Wrote method salt target shut stage left told (.ready count, ⟨.connected, stream⟩)
  | stuck {result : Written} {client : ProxyClientStream}
      (holds : Tunnel.Holds method salt client.stream) (same : client.stream.shut = shut)
      (unready : result = .pending ∨ result = .unexpectedEof)
      (standing : Standing target client.writerState stage client.stream.offered
        client.stream.accepted told) :
      Wrote method salt target shut stage left told (result, client)

theorem wrote_sendFirst (client : ProxyClientStream) {stage : TunnelStage} (early : Opening stage)
    (holds : Tunnel.Holds method salt client.stream)
    (same : ∀ other, client.stream.offered = some other → other = target.written ++ stage.left)
    (nothing : client.stream.accepted = []) (grants : List Nat) :
    Wrote method salt target client.stream.shut stage stage.left []
      (client.sendFirst method (target.written ++ stage.left) stage.left grants) := by
  have wrote := Tunnel.wrote_pollWrite holds (target.written ++ stage.left) grants
  rw [Tunnel.getD_of_same same, nothing] at wrote
  unfold ProxyClientStream.sendFirst
  generalize client.stream.pollWrite method (target.written ++ stage.left) grants = result
    at wrote
  cases wrote with
  | ready holds idle more same =>
      refine .ready holds same (fun some => ?_) idle ?_
      · exact fun none => some (List.length_eq_zero_iff.mp none)
      · rw [more, first_fits early, List.take_length]
        rfl
  | @stuck _ after holds unready again none same =>
      have standing : Standing target (.connecting (target.written ++ stage.left)) stage
          after.offered [] [] := .sending early again
      rcases unready with rfl | rfl
      · exact .stuck holds same (Or.inl rfl) (none.symm ▸ standing)
      · exact .stuck holds same (Or.inr rfl) (none.symm ▸ standing)

theorem wrote_pollWrite {client : ProxyClientStream} {stage : TunnelStage} {told left : Bytes}
    {next : Bytes → TunnelStage} (writes : Writes stage left next)
    (holds : Tunnel.Holds method salt client.stream)
    (standing : Standing target client.writerState stage client.stream.offered
      client.stream.accepted told) (grants : List Nat) :
    Wrote method salt target client.stream.shut stage left told
      (client.pollWrite method left grants) := by
  obtain ⟨state, stream⟩ := client
  obtain ⟨place, _⟩ := writes.left_eq
  dsimp only at holds standing
  unfold ProxyClientStream.pollWrite
  generalize offer : stream.offered = offered at standing
  generalize taken : stream.accepted = accepted at standing
  cases standing with
  | idle => cases writes
  | opening early =>
      subst place
      have buffer : makeFirstPacketBuffer none target stage.left =
          target.written ++ stage.left := by
        rw [makeFirstPacketBuffer, List.append_nil]
      dsimp only
      rw [buffer]
      apply wrote_sendFirst ⟨_, stream⟩ early holds _ taken grants
      intro other present
      cases offer.symm.trans present
  | sending early same =>
      subst place
      exact wrote_sendFirst ⟨_, stream⟩ early holds
        (fun other present => same other (offer ▸ present)) taken grants
  | lost => cases writes
  | connected begun same whole =>
      have wrote := Tunnel.wrote_pollWrite holds left grants
      rw [Tunnel.getD_of_same fun other present =>
        (same other (offer ▸ present)).1.trans place, taken, whole] at wrote
      dsimp only
      generalize stream.pollWrite method left grants = result at wrote
      cases wrote with
      | ready holds idle more same =>
          refine .ready holds same (fun some none => ?_) idle ?_
          · simp only [List.length_take, maxPacketSize, Nat.min_eq_zero_iff,
              List.length_eq_zero_iff] at none
            exact none.elim (by decide) some
          · rw [more, Tunnel.take_length_take, List.append_assoc]
      | stuck holds unready again none same =>
          have some : left ≠ [] := by
            cases writes with
            | first some => exact some
            | handshake => exact begun.elim
            | copy some => exact some
          exact .stuck holds same unready (.connected begun (fun other present => by
            rw [place]
            exact ⟨again other present, some⟩) none)

theorem holds_writeLeft {left : Bytes} {next : Bytes → TunnelStage}
    (writes : Writes uplink.stage left next) (holds : Holds method salt target uplink)
    (grants : List Nat) :
    Holds method salt target (uplink.writeLeft method left grants next) := by
  obtain ⟨place, leftNext⟩ := writes.left_eq
  have opened := holds.opened writes.not_over
  have wrote := wrote_pollWrite writes holds.stream holds.standing grants
  have bytes := holds.bytes
  rw [place] at bytes
  unfold writeLeft
  generalize uplink.shadow.pollWrite method left grants = result at wrote
  cases wrote with
  | @ready count stream kept same more idle whole =>
      obtain ⟨begun, drained⟩ := writes.next_spec count
      dsimp only
      rw [if_neg fun none => more none.2 none.1]
      refine ⟨kept, .connected begun ?_ whole, ?_, fun done => holds.drained (drained done), ?_⟩
      · intro other present
        cases idle.symm.trans present
      · change (uplink.told ++ left.take count) ++
          ((next (left.drop count)).left ++ uplink.plain.contents) = uplink.sent
        rw [leftNext, List.append_assoc, ← List.append_assoc (left.take _), List.take_append_drop]
        exact bytes
      · exact fun shut => by cases (same.trans opened).symm.trans shut
  | @stuck _ client kept same unready standing =>
      have stays : Holds method salt target { uplink with shadow := client } :=
        ⟨kept, standing, holds.bytes, holds.drained,
          fun shut => by cases (same.trans opened).symm.trans shut⟩
      rcases unready with rfl | rfl
      · exact stays
      · exact stays.drop place

/-! ### Every event -/

theorem holds_poll_start (stage : uplink.stage = .start)
    (holds : Holds method salt target uplink) (grants : List Nat) :
    Holds method salt target (uplink.poll method grants) := by
  have standing := holds.standing
  have going : ¬ Over uplink.stage := stage ▸ id
  rw [stage] at standing
  obtain ⟨state, offered, accepted, told⟩ := standing.at_start
  have early {next : TunnelStage} (standing : Standing target (.connect target) next none [] []) :
      Standing target uplink.shadow.writerState next uplink.shadow.stream.offered
        uplink.shadow.stream.accepted uplink.told := by
    rw [state, offered, accepted, told]
    exact standing
  unfold poll
  rw [stage]
  dsimp only
  split
  · exact holds
  · exact holds.drop (stage ▸ rfl)
  · rename_i data plain some read
    obtain ⟨moved, short, _, _⟩ := Polled.read_spec (by decide) read
    exact holds.moved going (early (.opening ⟨some, short⟩)) (by rw [stage]; exact moved)
      False.elim

/-- Nothing is left: what comes next is read, or copying begins or ends. -/
theorem holds_poll_idle (kind : uplink.stage = .first [] ∨ ∃ done, uplink.stage = .copy [] done)
    (holds : Holds method salt target uplink) (grants : List Nat) :
    Holds method salt target (uplink.poll method grants) := by
  obtain ⟨state, idle, whole⟩ := holds.standing.at_copy kind
  have going : ¬ Over uplink.stage := by
    rcases kind with stage | ⟨_, stage⟩ <;> exact stage ▸ id
  have connected {next : TunnelStage} (begun : Begun next) :
      Standing target uplink.shadow.writerState next uplink.shadow.stream.offered
        uplink.shadow.stream.accepted uplink.told := by
    rw [state, idle]
    exact .connected begun (fun _ other => by cases other) whole
  unfold poll
  rcases kind with stage | ⟨readDone, stage⟩
  · rw [stage]
    exact holds.moved going (connected trivial) (by rw [stage]; rfl) fun done => by cases done
  · rw [stage]
    cases readDone with
    | false =>
        dsimp only
        split
        · exact holds
        · rename_i read
          obtain ⟨_, _, _, atEnd⟩ := Polled.read_spec (by decide) read
          exact holds.moved going (connected trivial) (by rw [stage]; rfl) fun _ => atEnd rfl
        · rename_i data plain some read
          obtain ⟨moved, _, _, _⟩ := Polled.read_spec (by decide) read
          exact holds.moved going (connected trivial) (by rw [stage]; exact moved)
            fun done => by cases done
    | true =>
        have bytes := holds.bytes
        rw [stage] at bytes
        exact ⟨Tunnel.holds_shutdown holds.stream, connected trivial, bytes,
          fun _ => holds.drained (stage ▸ rfl), fun _ => trivial⟩

theorem holds_poll (holds : Holds method salt target uplink) (grants : List Nat) :
    Holds method salt target (uplink.poll method grants) := by
  cases stage : uplink.stage with
  | start => exact holds_poll_start stage holds grants
  | first left =>
      cases left with
      | nil => exact holds_poll_idle (Or.inl stage) holds grants
      | cons byte rest =>
          unfold poll
          rw [stage]
          exact holds_writeLeft (stage ▸ .first (List.cons_ne_nil _ _)) holds grants
  | handshake =>
      unfold poll
      rw [stage]
      exact holds_writeLeft (stage ▸ .handshake) holds grants
  | copy left readDone =>
      cases left with
      | nil => exact holds_poll_idle (Or.inr ⟨readDone, stage⟩) holds grants
      | cons byte rest =>
          unfold poll
          rw [stage]
          exact holds_writeLeft (stage ▸ .copy (List.cons_ne_nil _ _)) holds grants
  | closed =>
      unfold poll
      rw [stage]
      exact holds
  | dropped left =>
      unfold poll
      rw [stage]
      exact holds

theorem holds_onStream (change : Tunnel → Tunnel)
    (stream : Tunnel.Holds method salt (change uplink.shadow.stream))
    (offered : (change uplink.shadow.stream).offered = uplink.shadow.stream.offered)
    (accepted : (change uplink.shadow.stream).accepted = uplink.shadow.stream.accepted)
    (shut : (change uplink.shadow.stream).shut = uplink.shadow.stream.shut)
    (holds : Holds method salt target uplink) :
    Holds method salt target (uplink.onStream change) := by
  refine ⟨stream, ?_, holds.bytes, holds.drained, fun ceased => holds.shut (shut ▸ ceased)⟩
  change Standing target uplink.shadow.writerState uplink.stage
    (change uplink.shadow.stream).offered (change uplink.shadow.stream).accepted uplink.told
  rw [offered, accepted]
  exact holds.standing

theorem holds_send (holds : Holds method salt target uplink) (piece : Bytes) :
    Holds method salt target (uplink.send piece) := by
  unfold send
  split
  · exact holds
  · rename_i going
    refine ⟨holds.stream, holds.standing, ?_, fun done => absurd (holds.drained done).2 going,
      holds.shut⟩
    change uplink.told ++ (uplink.stage.left ++ (uplink.plain.arrive piece).contents) =
      uplink.sent ++ piece
    rw [Polled.contents_arrive, ← holds.bytes]
    simp only [List.append_assoc]

theorem holds_timeout (holds : Holds method salt target uplink) :
    Holds method salt target uplink.timeout := by
  unfold timeout
  split
  · rename_i stage
    have standing := holds.standing
    rw [stage] at standing
    obtain ⟨state, offered, accepted, told⟩ := standing.at_start
    refine holds.moved (stage ▸ id) ?_ (by rw [stage]; rfl) False.elim
    rw [state, offered, accepted, told]
    exact .opening trivial
  · exact holds

theorem holds_step (saltLength : salt.length = method.saltLen) (fresh : repeated salt = false)
    (event : UplinkEvent) (holds : Holds method salt target uplink) :
    Holds method salt target (uplink.step method repeated event) := by
  cases event with
  | send piece => exact holds_send holds piece
  | close =>
      exact ⟨holds.stream, holds.standing, holds.bytes,
        fun done => ⟨(holds.drained done).1, rfl⟩, holds.shut⟩
  | timeout => exact holds_timeout holds
  | poll grants => exact holds_poll holds grants
  | abort => exact holds_abort holds
  | arrive count =>
      exact holds_onStream (·.arrive count) (Tunnel.holds_arrive holds.stream count) rfl rfl rfl
        holds
  | arriveEnd =>
      have frame : uplink.shadow.stream.arriveEnd.offered = uplink.shadow.stream.offered ∧
          uplink.shadow.stream.arriveEnd.accepted = uplink.shadow.stream.accepted ∧
          uplink.shadow.stream.arriveEnd.shut = uplink.shadow.stream.shut := by
        unfold Tunnel.arriveEnd
        split <;> exact ⟨rfl, rfl, rfl⟩
      exact holds_onStream _ (Tunnel.holds_arriveEnd holds.stream) frame.1 frame.2.1 frame.2.2 holds
  | read capacity =>
      obtain ⟨offered, accepted, shut, _⟩ :=
        Tunnel.read_frame method repeated uplink.shadow.stream capacity
      exact holds_onStream (·.read method repeated capacity)
        (Tunnel.holds_read saltLength fresh holds.stream capacity) offered accepted shut holds

theorem holds_run (saltLength : salt.length = method.saltLen) (fresh : repeated salt = false)
    (target : TargetAddr) (events : List UplinkEvent) :
    Holds method salt target
      (Machine.run (step method repeated) (start method salt target) events) :=
  Machine.run_invariant (fun _ event holds => holds_step saltLength fresh event holds)
    (holds_start saltLength) events

/-! ## What the server gets -/

theorem readFrom_target (target : TargetAddr) (rest : Bytes) :
    Address.readFrom (target.written ++ rest) = .ok (target.address.plain, rest) :=
  Address.readFrom_append target.wrote rest

/-- A stream that is not connected has taken nothing. -/
theorem Holds.accepted (holds : Holds method salt target uplink) :
    uplink.shadow.stream.accepted = [] ∨
      uplink.shadow.stream.accepted = target.written ++ uplink.told := by
  have standing := holds.standing
  generalize uplink.shadow.stream.accepted = accepted at standing ⊢
  generalize uplink.told = told at standing ⊢
  generalize uplink.stage = stage at standing
  generalize uplink.shadow.writerState = state at standing
  generalize uplink.shadow.stream.offered = offered at standing
  cases standing with
  | connected _ _ whole => exact Or.inr whole
  | _ => exact Or.inl rfl

theorem Holds.told_of_closed (holds : Holds method salt target uplink)
    (closed : uplink.stage = .closed) : uplink.told = uplink.sent := by
  have bytes := holds.bytes
  rw [(holds.drained (closed ▸ trivial)).1, closed] at bytes
  rw [← bytes]
  exact (List.append_nil _).symm

theorem Holds.accepted_of_closed (holds : Holds method salt target uplink)
    (closed : uplink.stage = .closed) :
    uplink.shadow.stream.offered = none ∧
      uplink.shadow.stream.accepted = target.written ++ uplink.sent := by
  have standing := holds.standing
  rw [closed, holds.told_of_closed closed] at standing
  generalize uplink.shadow.stream.accepted = accepted at standing ⊢
  generalize uplink.shadow.stream.offered = offered at standing ⊢
  generalize uplink.shadow.writerState = state at standing
  generalize uplink.sent = sent at standing ⊢
  cases standing with
  | opening early => exact early.elim
  | sending early _ => exact early.elim
  | connected _ same whole =>
      refine ⟨?_, whole⟩
      cases offered with
      | none => rfl
      | some other => exact absurd rfl (same other rfl).2

/-- However the application sends, the stream is polled, the bytes travel and errors come: once
the server can read the target's address, it is the one asked for, and what follows is the
front of what the application has sent. If the server has come to the end and the client has
not dropped the connection early, it is all of it. -/
theorem server_gets_what_was_sent (saltLength : salt.length = method.saltLen)
    (fresh : repeated salt = false) (target : TargetAddr) (events : List UplinkEvent) :
    let uplink := Machine.run (step method repeated) (start method salt target) events
    (target.written.length ≤ uplink.shadow.stream.delivered.length →
      ∃ payload, Address.readFrom uplink.shadow.stream.delivered =
        .ok (target.address.plain, payload) ∧ payload <+: uplink.sent) ∧
    (uplink.shadow.stream.ended = true → (∀ left, uplink.stage ≠ .dropped left) →
      Address.readFrom uplink.shadow.stream.delivered =
        .ok (target.address.plain, uplink.sent)) := by
  intro uplink
  have holds : Holds method salt target uplink := holds_run saltLength fresh target events
  have front := holds.stream.delivered_within_accepted
  have sent : uplink.told <+: uplink.sent := ⟨_, holds.bytes⟩
  refine ⟨fun long => ?_, fun ended kept => ?_⟩
  · rcases holds.accepted with none | whole
    · rw [none, List.prefix_nil] at front
      rw [front, List.length_nil, Nat.le_zero, List.length_eq_zero_iff] at long
      have read := readFrom_target target []
      rw [long] at read
      rw [front]
      exact ⟨[], read, uplink.sent, rfl⟩
    · rw [whole] at front
      obtain ⟨payload, split⟩ := List.prefix_of_prefix_length_le
        (List.prefix_append target.written uplink.told) front long
      rw [← split] at front ⊢
      exact ⟨payload, readFrom_target target payload,
        ((List.prefix_append_right_inj _).mp front).trans sent⟩
  · obtain ⟨shut, delivered⟩ := holds.stream.finished ended
    have ceased := holds.shut shut
    have closed : uplink.stage = .closed := by
      cases stage : uplink.stage with
      | closed => rfl
      | dropped left => exact absurd stage (kept left)
      | _ =>
          rw [stage] at ceased
          exact ceased.elim
    rw [delivered, (holds.accepted_of_closed closed).2]
    exact readFrom_target target uplink.sent

/-- When the application has closed and all was written, the server gets everything as soon as
it has arrived. -/
theorem server_gets_everything (saltLength : salt.length = method.saltLen)
    (fresh : repeated salt = false) (target : TargetAddr) (events : List UplinkEvent)
    {capacity : Nat} (room : 0 < capacity) :
    let uplink := Machine.run (step method repeated) (start method salt target) events
    let stream := uplink.shadow.stream
    uplink.stage = .closed →
    Address.readFrom (Machine.run (Tunnel.step method repeated) stream
      (.arrive stream.inFlight.length ::
        List.replicate stream.accepted.length (.read capacity))).delivered =
      .ok (target.address.plain, uplink.sent) := by
  intro uplink stream closed
  have holds : Holds method salt target uplink := holds_run saltLength fresh target events
  obtain ⟨idle, accepted⟩ := holds.accepted_of_closed closed
  have arrived : (stream.arrive stream.inFlight.length).inFlight = [] := List.drop_length
  have whole := (Tunnel.holds_arrive holds.stream _).reads_deliver saltLength fresh idle arrived
    room _ (Nat.le_add_left _ _)
  have read := readFrom_target target uplink.sent
  rw [← accepted] at read
  exact (congrArg Address.readFrom whole).trans read

end Kept

def shortTarget : TargetAddr :=
  ⟨.domainNameAddress ['a'] 80, [3, 1, 97, 0, 80], by decide +kernel⟩

def shortEvents : List UplinkEvent :=
  [.send [1, 2], .poll [], .poll [9], .poll [99], .poll [], .send [3], .close, .poll [], .poll [99],
    .poll [], .poll []]

def shortEventsRead : List UplinkEvent :=
  shortEvents ++ [.arrive 99, .arriveEnd, .read 99, .read 99, .read 99]

def shortRun (events : List UplinkEvent) : Uplink :=
  Machine.run (step openMethod fun _ => false) (start openMethod [5] shortTarget) events

theorem server_gets_what_was_sent_short :
    (shortRun shortEventsRead).sent = [1, 2, 3] ∧
    Address.readFrom (shortRun shortEventsRead).shadow.stream.delivered =
      .ok (shortTarget.address.plain, (shortRun shortEventsRead).sent) := by
  have ceased : (shortRun shortEventsRead).shadow.stream.ended = true := by decide +kernel
  have closed : (shortRun shortEventsRead).stage = .closed := by decide +kernel
  refine ⟨by decide +kernel, ?_⟩
  exact (@server_gets_what_was_sent openMethod [5] (fun _ => false) rfl rfl shortTarget
    shortEventsRead).2 ceased fun left other => by cases closed.symm.trans other

theorem server_gets_everything_short :
    let stream := (shortRun shortEvents).shadow.stream
    Address.readFrom (Machine.run (Tunnel.step openMethod fun _ => false) stream
      (.arrive stream.inFlight.length ::
        List.replicate stream.accepted.length (.read 2))).delivered =
      .ok (shortTarget.address.plain, (shortRun shortEvents).sent) := by
  have closed : (shortRun shortEvents).stage = .closed := by decide +kernel
  exact @server_gets_everything openMethod [5] (fun _ => false) rfl rfl shortTarget shortEvents 2
    (by decide) closed

end Uplink

end AlienConnection.Native
