import Mathlib.Data.BitVec
import AlienConnection.Database.ProfileTable

/-!
# Traffic accounting

A monitor receives 16-byte packets with the absolute counters of the native
client and adds them to the profile row when it is told to persist. The guard
field `persisted` does not hold a copy: it refers to the very object `current`
that later packets overwrite.
-/

namespace AlienConnection.Bg

open Database

abbrev Byte := BitVec 8

structure TrafficStats where
  txRate : Long := 0
  rxRate : Long := 0
  txTotal : Long := 0
  rxTotal : Long := 0
  deriving DecidableEq, Repr

/-- The objects a `TrafficStats?` variable of the monitor can refer to. -/
inductive StatsRef where
  | current
  deriving DecidableEq, Repr

structure TrafficMonitor where
  current : TrafficStats := {}
  out : TrafficStats := {}
  timestampLast : Long := 0
  dirty : Bool := false
  persisted : Option StatsRef := none
  deriving DecidableEq, Repr

def getLong (buffer : List Byte) (offset : Nat) : Long :=
  ((buffer.drop offset).take 8).foldr (fun byte rest => rest * 256 + byte.setWidth 64) 0

namespace TrafficMonitor

def reportTx (monitor : TrafficMonitor) (tx : Long) : TrafficMonitor :=
  if monitor.current.txTotal ≠ tx then
    { monitor with current := { monitor.current with txTotal := tx }, dirty := true }
  else monitor

def reportRx (monitor : TrafficMonitor) (rx : Long) : TrafficMonitor :=
  if monitor.current.rxTotal ≠ rx then
    { monitor with current := { monitor.current with rxTotal := rx }, dirty := true }
  else monitor

def report (monitor : TrafficMonitor) (tx rx : Long) : TrafficMonitor :=
  (monitor.reportTx tx).reportRx rx

/-- Handle one connection of the stat socket: the result of reading into the
16-byte buffer is nothing at the end of the stream, else the bytes read. -/
def acceptInternal (monitor : TrafficMonitor) : Option (List Byte) → Except String TrafficMonitor
  | none => .ok monitor
  | some bytes =>
      if bytes.length = 16 then .ok (monitor.report (getLong bytes 0) (getLong bytes 8))
      else .error ("Unexpected traffic stat length " ++ toString bytes.length)

def rate (total before delta : Long) : Long := ((total - before) * 1000).sdiv delta

/-- `requestUpdate` at a time of the clock: the statistics and whether they changed. -/
def requestUpdate (monitor : TrafficMonitor) (now : Long) :
    (TrafficStats × Bool) × TrafficMonitor :=
  let delta := now - monitor.timestampLast
  let monitor := { monitor with timestampLast := now }
  if delta ≠ 0 then
    if monitor.dirty then
      let out := { monitor.current with
        txRate := rate monitor.current.txTotal monitor.out.txTotal delta
        rxRate := rate monitor.current.rxTotal monitor.out.rxTotal delta }
      ((out, true), { monitor with out := out, dirty := false })
    else
      let out := { monitor.out with txRate := 0, rxRate := 0 }
      ((out, monitor.out.txRate ≠ 0 || monitor.out.rxRate ≠ 0), { monitor with out := out })
  else ((monitor.out, false), monitor)

def deref (monitor : TrafficMonitor) : StatsRef → TrafficStats
  | .current => monitor.current

/-- The check and the assignment that open `persistStats`. -/
def markPersisted (monitor : TrafficMonitor) : Except String TrafficMonitor :=
  match monitor.persisted with
  | none => .ok { monitor with persisted := some .current }
  | some previous =>
      if monitor.deref previous = monitor.current then
        .ok { monitor with persisted := some .current }
      else .error "Data loss occurred"

def addTotals (monitor : TrafficMonitor) (profile : Profile) : Profile :=
  { profile with
    tx := profile.tx + monitor.current.txTotal
    rx := profile.rx + monitor.current.rxTotal }

/-- Add the totals of the session to the row of the profile, if there is one. -/
def persistStats (monitor : TrafficMonitor) (table : ProfileTable) (id : Int) :
    Except String (TrafficMonitor × ProfileTable) :=
  match monitor.markPersisted with
  | .error message => .error message
  | .ok marked =>
      match table.get id with
      | none => .ok (marked, table)
      | some profile =>
          match ProfileManager.updateProfile table (monitor.addTotals profile) with
          | none => .error "Check failed."
          | some stored => .ok (marked, stored)

def totals (monitor : TrafficMonitor) : Long × Long :=
  (monitor.current.txTotal, monitor.current.rxTotal)

theorem totals_reportTx (monitor : TrafficMonitor) (tx : Long) :
    (monitor.reportTx tx).totals = (tx, monitor.current.rxTotal) := by
  unfold reportTx
  split
  · rfl
  · rename_i same
    rw [totals, not_not.mp same]

theorem totals_reportRx (monitor : TrafficMonitor) (rx : Long) :
    (monitor.reportRx rx).totals = (monitor.current.txTotal, rx) := by
  unfold reportRx
  split
  · rfl
  · rename_i same
    rw [totals, not_not.mp same]

@[simp]
theorem totals_report (monitor : TrafficMonitor) (tx rx : Long) :
    (monitor.report tx rx).totals = (tx, rx) := by
  have sent : (monitor.reportTx tx).current.txTotal = tx :=
    congrArg Prod.fst (monitor.totals_reportTx tx)
  rw [report, totals_reportRx, sent]

/-- The guard compares `current` with itself, so it never fails. -/
theorem markPersisted_eq (monitor : TrafficMonitor) :
    monitor.markPersisted = .ok { monitor with persisted := some .current } := by
  unfold markPersisted
  cases monitor.persisted with
  | none => rfl
  | some previous =>
      cases previous
      exact if_pos rfl

/-- Persisting adds the current totals to the row, every time it is called. -/
theorem persistStats_eq (monitor : TrafficMonitor) {table : ProfileTable} {id : Int}
    {row : Profile} (stored : table.get id = some row) :
    monitor.persistStats table id = .ok
      ({ monitor with persisted := some .current },
        table.write (monitor.addTotals row)) := by
  have member := (table.get_eq_some_iff.mp stored).1
  have updated : ProfileManager.updateProfile table (monitor.addTotals row) =
      some (table.write (monitor.addTotals row)) :=
    ProfileManager.updateProfile_of_mem member rfl
  simp only [persistStats, markPersisted_eq, stored, updated]

/-- The row reads back with the totals added. -/
theorem get_write_addTotals (monitor : TrafficMonitor) {table : ProfileTable} {id : Int}
    {row : Profile} (stored : table.get id = some row) :
    (table.write (monitor.addTotals row)).get id = some (monitor.addTotals row) := by
  obtain ⟨member, same⟩ := table.get_eq_some_iff.mp stored
  subst same
  have present : (monitor.addTotals row).id ∈ table.rows.map Profile.id :=
    List.mem_map.mpr ⟨row, member, rfl⟩
  exact Library.Rows.lookup_replace_self present

end TrafficMonitor

/-! ## Sequences of packets and persist calls -/

/-- A packet of the native client: exactly one full receive buffer. -/
structure StatPacket where
  bytes : List Byte
  size : bytes.length = 16

namespace StatPacket

def tx (packet : StatPacket) : Long := getLong packet.bytes 0

def rx (packet : StatPacket) : Long := getLong packet.bytes 8

end StatPacket

inductive Activity where
  | packet (packet : StatPacket)
  | persist

structure Accounting where
  monitor : TrafficMonitor
  table : ProfileTable

namespace Accounting

def step (id : Int) (state : Accounting) : Activity → Except String Accounting
  | .packet packet =>
      match state.monitor.acceptInternal (some packet.bytes) with
      | .error message => .error message
      | .ok monitor => .ok { state with monitor := monitor }
  | .persist =>
      match state.monitor.persistStats state.table id with
      | .error message => .error message
      | .ok (monitor, table) => .ok ⟨monitor, table⟩

def run (id : Int) (state : Accounting) : List Activity → Except String Accounting
  | [] => .ok state
  | activity :: rest =>
      match state.step id activity with
      | .error message => .error message
      | .ok next => next.run id rest

def start (table : ProfileTable) : Accounting := ⟨{}, table⟩

end Accounting

/-- The totals in force at each persist call, read off the packets alone. -/
def callTotals (latest : Long × Long) : List Activity → List (Long × Long)
  | [] => []
  | .packet packet :: rest => callTotals (packet.tx, packet.rx) rest
  | .persist :: rest => latest :: callTotals latest rest

def latestTotals (latest : Long × Long) : List Activity → Long × Long
  | [] => latest
  | .packet packet :: rest => latestTotals (packet.tx, packet.rx) rest
  | .persist :: rest => latestTotals latest rest

def sentSum (calls : List (Long × Long)) : Long := (calls.map Prod.fst).sum

def receivedSum (calls : List (Long × Long)) : Long := (calls.map Prod.snd).sum

theorem callTotals_append (latest : Long × Long) (first second : List Activity) :
    callTotals latest (first ++ second) =
      callTotals latest first ++ callTotals (latestTotals latest first) second := by
  induction first generalizing latest with
  | nil => rfl
  | cons activity rest ih =>
      cases activity with
      | packet packet => exact ih (packet.tx, packet.rx)
      | persist => exact congrArg (List.cons latest) (ih latest)

/-- Packets alone make no call. -/
theorem callTotals_packets (latest : Long × Long) (activities : List Activity)
    (packets : Activity.persist ∉ activities) : callTotals latest activities = [] := by
  induction activities generalizing latest with
  | nil => rfl
  | cons activity rest ih =>
      cases activity with
      | packet packet => exact ih _ (fun member => packets (List.mem_cons_of_mem _ member))
      | persist => exact absurd List.mem_cons_self packets

theorem TrafficMonitor.acceptInternal_packet (monitor : TrafficMonitor) (packet : StatPacket) :
    monitor.acceptInternal (some packet.bytes) = .ok (monitor.report packet.tx packet.rx) :=
  if_pos packet.size

theorem Accounting.step_packet (id : Int) (state : Accounting) (packet : StatPacket) :
    state.step id (.packet packet) =
      .ok { state with monitor := state.monitor.report packet.tx packet.rx } := by
  simp only [Accounting.step, TrafficMonitor.acceptInternal_packet]

/-- Every run succeeds. It leaves the last packet's totals in the monitor and has
added to the row the totals in force at each of its persist calls. -/
theorem Accounting.run_spec (id : Int) (activities : List Activity) (state : Accounting)
    {row : Profile} (stored : state.table.get id = some row) :
    ∃ final, state.run id activities = .ok final ∧
      final.monitor.totals = latestTotals state.monitor.totals activities ∧
      final.table.get id = some { row with
        tx := row.tx + sentSum (callTotals state.monitor.totals activities)
        rx := row.rx + receivedSum (callTotals state.monitor.totals activities) } := by
  induction activities generalizing state row with
  | nil =>
      refine ⟨state, rfl, rfl, ?_⟩
      simpa [callTotals, sentSum, receivedSum] using stored
  | cons activity rest ih =>
      cases activity with
      | packet packet =>
          obtain ⟨final, ran, totals, added⟩ :=
            ih { state with monitor := state.monitor.report packet.tx packet.rx } stored
          refine ⟨final, ?_, ?_, ?_⟩
          · simp only [Accounting.run, Accounting.step_packet]
            exact ran
          · rw [TrafficMonitor.totals_report] at totals
            exact totals
          · rw [TrafficMonitor.totals_report] at added
            exact added
      | persist =>
          obtain ⟨final, ran, totals, added⟩ :=
            ih ⟨{ state.monitor with persisted := some .current },
              state.table.write (state.monitor.addTotals row)⟩
              (state.monitor.get_write_addTotals stored)
          refine ⟨final, ?_, totals, ?_⟩
          · simp only [Accounting.run, Accounting.step,
              state.monitor.persistStats_eq stored]
            exact ran
          · rw [added]
            simp only [TrafficMonitor.totals, TrafficMonitor.addTotals, callTotals, sentSum,
              receivedSum, List.map_cons, List.sum_cons, BitVec.add_assoc]

/-- What is added to the row over the whole sequence is what the monitor held at
its last persist call. -/
def PersistedOnce (id : Int) (table : ProfileTable) (activities : List Activity) : Prop :=
  ∀ row before after,
    table.get id = some row → activities = before ++ .persist :: after →
    Activity.persist ∉ after →
    ∃ atLast final stored,
      (Accounting.start table).run id before = .ok atLast ∧
      (Accounting.start table).run id activities = .ok final ∧
      final.table.get id = some stored ∧
      stored.tx - row.tx = atLast.monitor.current.txTotal ∧
      stored.rx - row.rx = atLast.monitor.current.rxTotal

def earlierTotals (activities : List Activity) : List (Long × Long) :=
  (callTotals (0, 0) activities).dropLast

/-- A sequence with a persist call has a last one. -/
theorem exists_last_persist {activities : List Activity} (called : .persist ∈ activities) :
    ∃ before after, activities = before ++ .persist :: after ∧ Activity.persist ∉ after := by
  induction activities with
  | nil => cases called
  | cons activity rest ih =>
      by_cases later : Activity.persist ∈ rest
      · obtain ⟨before, after, split, last⟩ := ih later
        exact ⟨activity :: before, after, by rw [split, List.cons_append], last⟩
      · rcases List.mem_cons.mp called with here | there
        · exact ⟨[], rest, by rw [here, List.nil_append], later⟩
        · exact absurd there later

/-- With its last call marked, the calls of a sequence are the earlier ones and
one with the totals then in force. -/
theorem callTotals_split (latest : Long × Long) (before after : List Activity)
    (last : Activity.persist ∉ after) :
    callTotals latest (before ++ .persist :: after) =
      callTotals latest before ++ [latestTotals latest before] := by
  rw [callTotals_append]
  exact congrArg (fun rest => callTotals latest before ++ latestTotals latest before :: rest)
    (callTotals_packets _ after last)

theorem sentSum_concat (calls : List (Long × Long)) (call : Long × Long) :
    sentSum (calls ++ [call]) = sentSum calls + call.1 := by
  simp [sentSum]

theorem receivedSum_concat (calls : List (Long × Long)) (call : Long × Long) :
    receivedSum (calls ++ [call]) = receivedSum calls + call.2 := by
  simp [receivedSum]

/-- Up to its last call a sequence adds the totals of the earlier calls and, once
more, those the monitor holds at that call. -/
theorem run_to_last_persist {id : Int} {table : ProfileTable} {row : Profile}
    (stored : table.get id = some row) {activities before after : List Activity}
    (split : activities = before ++ .persist :: after) (last : Activity.persist ∉ after) :
    ∃ atLast final written,
      (Accounting.start table).run id before = .ok atLast ∧
      (Accounting.start table).run id activities = .ok final ∧
      final.table.get id = some written ∧
      written.tx - row.tx =
        sentSum (earlierTotals activities) + atLast.monitor.current.txTotal ∧
      written.rx - row.rx =
        receivedSum (earlierTotals activities) + atLast.monitor.current.rxTotal := by
  obtain ⟨atLast, ranBefore, totals, _⟩ :=
    Accounting.run_spec id before (Accounting.start table) stored
  obtain ⟨final, ran, _, added⟩ :=
    Accounting.run_spec id activities (Accounting.start table) stored
  have heldTx : atLast.monitor.current.txTotal = (latestTotals (0, 0) before).1 :=
    congrArg Prod.fst totals
  have heldRx : atLast.monitor.current.rxTotal = (latestTotals (0, 0) before).2 :=
    congrArg Prod.snd totals
  have calls : callTotals (0, 0) activities =
      callTotals (0, 0) before ++ [latestTotals (0, 0) before] := by
    rw [split]
    exact callTotals_split _ _ _ last
  have earlier : earlierTotals activities = callTotals (0, 0) before := by
    rw [earlierTotals, calls, List.dropLast_concat]
  refine ⟨atLast, final, _, ranBefore, ran, added, ?_, ?_⟩
  · change row.tx + sentSum (callTotals (0, 0) activities) - row.tx = _
    rw [calls, sentSum_concat, earlier, heldTx, BitVec.add_comm, BitVec.add_sub_cancel]
  · change row.rx + receivedSum (callTotals (0, 0) activities) - row.rx = _
    rw [calls, receivedSum_concat, earlier, heldRx, BitVec.add_comm, BitVec.add_sub_cancel]

/-- If the row received exactly the last totals, the earlier ones cancel. -/
theorem PersistedOnce.earlier_cancel {id : Int} {table : ProfileTable} {row : Profile}
    (stored : table.get id = some row) {activities : List Activity}
    (once : PersistedOnce id table activities) :
    sentSum (earlierTotals activities) = 0 ∧ receivedSum (earlierTotals activities) = 0 := by
  by_cases called : Activity.persist ∈ activities
  · obtain ⟨before, after, split, last⟩ := exists_last_persist called
    obtain ⟨atLast, final, written, ranBefore, ran, read, txEq, rxEq⟩ :=
      run_to_last_persist stored split last
    obtain ⟨atLast', final', written', ranBefore', ran', read', txOnce, rxOnce⟩ :=
      once row before after stored split last
    cases ranBefore.symm.trans ranBefore'
    cases ran.symm.trans ran'
    cases read.symm.trans read'
    exact ⟨add_eq_right.mp (txEq.symm.trans txOnce), add_eq_right.mp (rxEq.symm.trans rxOnce)⟩
  · rw [earlierTotals, callTotals_packets _ activities called]
    exact ⟨rfl, rfl⟩

/-- Each byte is persisted exactly once precisely when the totals in force at the
calls before the last one cancel, which for counters that only grow means that
nothing had been reported yet at any of them. -/
theorem persistedOnce_iff (id : Int) (table : ProfileTable) (row : Profile)
    (stored : table.get id = some row) (activities : List Activity) :
    PersistedOnce id table activities ↔
      sentSum (earlierTotals activities) = 0 ∧ receivedSum (earlierTotals activities) = 0 := by
  constructor
  · intro once
    exact once.earlier_cancel stored
  · rintro ⟨sentZero, receivedZero⟩ row' before after stored' split last
    obtain ⟨atLast, final, written, ranBefore, ran, read, txEq, rxEq⟩ :=
      run_to_last_persist stored' split last
    rw [sentZero, zero_add] at txEq
    rw [receivedZero, zero_add] at rxEq
    exact ⟨atLast, final, written, ranBefore, ran, read, txEq, rxEq⟩

def singleProfileTable : ProfileTable :=
  (ProfileManager.createProfile .empty {}).2

def samplePacket : StatPacket where
  bytes := [5, 0, 0, 0, 0, 0, 0, 0, 7, 0, 0, 0, 0, 0, 0, 0]
  size := rfl

/-- A session persisted only at its end is accounted for exactly once. -/
theorem persistedOnce_single_call :
    PersistedOnce 1 singleProfileTable [.packet samplePacket, .persist] :=
  (persistedOnce_iff 1 singleProfileTable { id := 1 } rfl _).mpr ⟨rfl, rfl⟩

/-- A session persisted at a shutdown broadcast and once more at its end adds its
5 and 7 bytes twice. -/
theorem not_persistedOnce_shutdown :
    ¬ PersistedOnce 1 singleProfileTable [.packet samplePacket, .persist, .persist] := by
  intro once
  have stored : singleProfileTable.get 1 = some { id := 1 } := rfl
  have cancel := once.earlier_cancel stored
  exact absurd cancel.1 (by decide)

end AlienConnection.Bg
