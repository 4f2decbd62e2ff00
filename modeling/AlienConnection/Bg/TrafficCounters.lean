import AlienConnection.Bg.TrafficMonitor
import AlienConnection.Library.Machine
import Mathlib.Data.List.Induction

/-!
# Counters of successive processes

The guard of the native client may start it again while the same monitor stays in use.
Every process counts from zero, and the monitor takes over the counters of whichever
process reports. Beside the monitor the sums are kept that it should hold: what earlier
processes reported last, and what the current one reported last.
-/

namespace AlienConnection.Bg

open Database Library

inductive TrafficEvent where
  | packet (packet : StatPacket)
  | restart
  | request (now : Long)

structure Volume where
  tx : Int := 0
  rx : Int := 0

namespace Volume

def add (first second : Volume) : Volume := ⟨first.tx + second.tx, first.rx + second.rx⟩

def ofPacket (packet : StatPacket) : Volume := ⟨packet.tx.toInt, packet.rx.toInt⟩

def ofTotals (stats : TrafficStats) : Volume := ⟨stats.txTotal.toInt, stats.rxTotal.toInt⟩

def LE (first second : Volume) : Prop := first.tx ≤ second.tx ∧ first.rx ≤ second.rx

instance (first second : Volume) : Decidable (first.LE second) :=
  inferInstanceAs (Decidable (first.tx ≤ second.tx ∧ first.rx ≤ second.rx))

theorem LE.refl (volume : Volume) : volume.LE volume := ⟨Int.le_refl _, Int.le_refl _⟩

theorem LE.trans {first second third : Volume} (below : first.LE second)
    (above : second.LE third) : first.LE third :=
  ⟨Int.le_trans below.1 above.1, Int.le_trans below.2 above.2⟩

end Volume

structure TrafficCounters where
  monitor : TrafficMonitor := {}
  earlier : Volume := {}
  latest : Volume := {}

namespace TrafficCounters

def step (state : TrafficCounters) : TrafficEvent → TrafficCounters
  | .packet packet =>
      { state with
        monitor := state.monitor.report packet.tx packet.rx
        latest := Volume.ofPacket packet }
  | .restart => { state with earlier := state.earlier.add state.latest, latest := {} }
  | .request now => { state with monitor := (state.monitor.requestUpdate now).2 }

def run (events : List TrafficEvent) : TrafficCounters := Machine.run step {} events

def totals (state : TrafficCounters) : Volume := Volume.ofTotals state.monitor.current

/-- An event can come next: the counters of a process and the clock do not go back. -/
def Admits (state : TrafficCounters) : TrafficEvent → Prop
  | .packet packet => state.latest.LE (Volume.ofPacket packet)
  | .restart => True
  | .request now => state.monitor.timestampLast.toInt ≤ now.toInt

instance (state : TrafficCounters) : DecidablePred state.Admits
  | .packet packet => inferInstanceAs (Decidable (state.latest.LE (Volume.ofPacket packet)))
  | .restart => isTrue trivial
  | .request now =>
      inferInstanceAs (Decidable (state.monitor.timestampLast.toInt ≤ now.toInt))

/-- Processes that count from zero, and a clock that does not go back. -/
def Lawful (events : List TrafficEvent) : Prop := Machine.Along step Admits {} events

/-- The totals equal what the processes reported, they never go down, and the rates
returned are not negative. -/
structure Accurate (events : List TrafficEvent) : Prop where
  equal : ∀ first second, events = first ++ second →
    (run first).totals = (run first).earlier.add (run first).latest
  monotone : ∀ first event second, events = first ++ event :: second →
    (run first).totals.LE (run (first ++ [event])).totals
  rates : ∀ first now second, events = first ++ .request now :: second →
    0 ≤ ((run first).monitor.requestUpdate now).1.1.txRate.toInt ∧
      0 ≤ ((run first).monitor.requestUpdate now).1.1.rxRate.toInt

/-- If the event is a packet, the processes before the current one have counted nothing. -/
def ReportsAlone (state : TrafficCounters) (event : TrafficEvent) : Prop :=
  ∀ packet, event = .packet packet → state.earlier = {}

def Alone (events : List TrafficEvent) : Prop := Machine.Along step ReportsAlone {} events

/-- A thousand times the growth is, in 64 bits, not so far below zero that it gives a
negative rate. -/
def Fits (growth elapsed : Int) : Prop := -elapsed < (growth * 1000).bmod (2 ^ 64)

def RatesFit (monitor : TrafficMonitor) (now : Long) : Prop :=
  now ≠ monitor.timestampLast → monitor.dirty = true →
    Fits (monitor.current.txTotal.toInt - monitor.out.txTotal.toInt)
        (now.toInt - monitor.timestampLast.toInt) ∧
      Fits (monitor.current.rxTotal.toInt - monitor.out.rxTotal.toInt)
        (now.toInt - monitor.timestampLast.toInt)

def Small (events : List TrafficEvent) : Prop :=
  Machine.Along step (fun state event => ∀ now, event = .request now → RatesFit state.monitor now)
    {} events

/-! ## Rates -/

theorem toInt_sub_of_le {first second : Long} (nonneg : 0 ≤ first.toInt)
    (le : first.toInt ≤ second.toInt) : (second - first).toInt = second.toInt - first.toInt := by
  have bound : second.toInt < 2 ^ 63 := BitVec.toInt_lt
  rw [BitVec.toInt_sub]
  apply Int.bmod_eq_of_le_mul_two <;> omega

theorem tdiv_nonneg_iff {number divisor : Int} (positive : 0 < divisor) :
    0 ≤ number.tdiv divisor ↔ -divisor < number := by
  rcases Int.le_total 0 number with nonneg | nonpos
  · exact ⟨fun _ => by omega, fun _ => Int.tdiv_nonneg nonneg (Int.le_of_lt positive)⟩
  · -- truncation: the quotient is zero down to the divisor
    have flip : number.tdiv divisor = -((-number) / divisor) := by
      rw [← Int.tdiv_eq_ediv_of_nonneg (by omega), Int.neg_tdiv, Int.neg_neg]
    have quotient : 0 ≤ (-number) / divisor := Int.ediv_nonneg (by omega) (Int.le_of_lt positive)
    rw [flip]
    constructor
    · intro nonneg
      have zero : (-number) / divisor = 0 := by omega
      have remainder := Int.emod_lt_of_pos (-number) positive
      have whole := Int.emod_add_mul_ediv (-number) divisor
      rw [zero, Int.mul_zero] at whole
      omega
    · intro less
      rw [Int.ediv_eq_zero_of_lt (by omega) (by omega)]
      exact Int.le_refl 0

/-- A rate is not negative exactly if the growth fits. -/
theorem rate_nonneg_iff {total before now last : Long} (nonneg : 0 ≤ before.toInt)
    (grown : before.toInt ≤ total.toInt) (clock : 0 ≤ last.toInt) (later : last.toInt < now.toInt) :
    0 ≤ (TrafficMonitor.rate total before (now - last)).toInt ↔
      Fits (total.toInt - before.toInt) (now.toInt - last.toInt) := by
  have elapsed := toInt_sub_of_le clock (Int.le_of_lt later)
  have growth := toInt_sub_of_le nonneg grown
  have divisor : now - last ≠ -1#64 := by
    intro same
    rw [same] at elapsed
    have minus : (-1#64 : Long).toInt = -1 := by decide
    omega
  have thousand : (1000 : Long).toInt = 1000 := by decide
  rw [TrafficMonitor.rate, BitVec.toInt_sdiv_of_ne_or_ne _ _ (Or.inr divisor), BitVec.toInt_mul,
    growth, elapsed, thousand, tdiv_nonneg_iff (by omega), Fits]

/-- A growth of less than some nine petabytes fits. -/
theorem fits_of_small {growth elapsed : Int} (nonneg : 0 ≤ growth)
    (small : growth * 1000 < 2 ^ 63) (positive : 0 < elapsed) : Fits growth elapsed := by
  have value : (growth * 1000).bmod (2 ^ 64) = growth * 1000 := by
    apply Int.bmod_eq_of_le_mul_two <;> omega
  rw [Fits, value]
  omega

/-- What `requestUpdate` does and returns. -/
theorem requestUpdate_cases (monitor : TrafficMonitor) (now : Long) :
    (monitor.requestUpdate now).1.1 = (monitor.requestUpdate now).2.out ∧
      (monitor.requestUpdate now).2.current = monitor.current ∧
      (monitor.requestUpdate now).2.timestampLast = now ∧
      ((now = monitor.timestampLast ∧ (monitor.requestUpdate now).2.out = monitor.out) ∨
        (now ≠ monitor.timestampLast ∧ monitor.dirty = false ∧
          (monitor.requestUpdate now).2.out = { monitor.out with txRate := 0, rxRate := 0 }) ∨
        (now ≠ monitor.timestampLast ∧ monitor.dirty = true ∧
          (monitor.requestUpdate now).2.out = { monitor.current with
            txRate := TrafficMonitor.rate monitor.current.txTotal monitor.out.txTotal
              (now - monitor.timestampLast)
            rxRate := TrafficMonitor.rate monitor.current.rxTotal monitor.out.rxTotal
              (now - monitor.timestampLast) })) := by
  unfold TrafficMonitor.requestUpdate
  by_cases same : now = monitor.timestampLast
  · have still : ¬ now - monitor.timestampLast ≠ 0 := by simp [same]
    simp only [if_neg still]
    exact ⟨trivial, trivial, trivial, Or.inl ⟨same, trivial⟩⟩
  · have moved : now - monitor.timestampLast ≠ 0 := sub_ne_zero.mpr same
    simp only [if_pos moved]
    cases dirty : monitor.dirty with
    | false => exact ⟨rfl, rfl, rfl, Or.inr (Or.inl ⟨same, rfl, rfl⟩)⟩
    | true => exact ⟨rfl, rfl, rfl, Or.inr (Or.inr ⟨same, rfl, rfl⟩)⟩

theorem report_spec (monitor : TrafficMonitor) (tx rx : Long) :
    (monitor.report tx rx).current.txTotal = tx ∧ (monitor.report tx rx).current.rxTotal = rx ∧
      (monitor.report tx rx).out = monitor.out ∧
      (monitor.report tx rx).timestampLast = monitor.timestampLast := by
  have totals := monitor.totals_report tx rx
  refine ⟨congrArg Prod.fst totals, congrArg Prod.snd totals, ?_, ?_⟩
  · unfold TrafficMonitor.report TrafficMonitor.reportRx TrafficMonitor.reportTx
    split <;> split <;> rfl
  · unfold TrafficMonitor.report TrafficMonitor.reportRx TrafficMonitor.reportTx
    split <;> split <;> rfl

/-! ## Totals -/

/-- The monitor holds the sums, and the statistics shown are not ahead of it. -/
structure Tracks (state : TrafficCounters) : Prop where
  totals : state.totals = state.earlier.add state.latest
  shown : (Volume.ofTotals state.monitor.out).LE state.totals
  positive : Volume.LE {} (Volume.ofTotals state.monitor.out)
  clock : 0 ≤ state.monitor.timestampLast.toInt

variable {state : TrafficCounters} {event : TrafficEvent}

theorem totals_packet (state : TrafficCounters) (packet : StatPacket) :
    (state.step (.packet packet)).totals = Volume.ofPacket packet := by
  obtain ⟨tx, rx, _, _⟩ := report_spec state.monitor packet.tx packet.rx
  simp only [totals, step, Volume.ofTotals, tx, rx, Volume.ofPacket]

theorem totals_request (state : TrafficCounters) (now : Long) :
    (state.step (.request now)).totals = state.totals := by
  obtain ⟨_, current, _⟩ := requestUpdate_cases state.monitor now
  simp only [totals, step, current]

/-- Alone, the current process has reported the totals. -/
theorem Tracks.latest_eq (tracks : state.Tracks) (alone : state.earlier = {}) :
    state.totals = state.latest := by
  rw [tracks.totals, alone]
  simp [Volume.add]

/-- The totals go up as long as only one process has counted anything. -/
theorem Tracks.totals_le (tracks : state.Tracks) (admits : state.Admits event)
    (alone : state.ReportsAlone event) :
    state.totals.LE (state.step event).totals := by
  cases event with
  | packet packet =>
      rw [tracks.latest_eq (alone packet rfl), totals_packet]
      exact admits
  | restart => exact Volume.LE.refl _
  | request now =>
      rw [totals_request]
      exact Volume.LE.refl _

theorem Tracks.step (tracks : state.Tracks) (admits : state.Admits event)
    (alone : state.ReportsAlone event) :
    (state.step event).Tracks := by
  have grown := tracks.totals_le admits alone
  cases event with
  | packet packet =>
      obtain ⟨_, _, out, clock⟩ := report_spec state.monitor packet.tx packet.rx
      have shown : (state.step (.packet packet)).monitor.out = state.monitor.out := out
      refine ⟨?_, ?_, ?_, ?_⟩
      · have earlier : (state.step (.packet packet)).earlier = {} := alone packet rfl
        rw [totals_packet, earlier]
        simp [Volume.add, TrafficCounters.step]
      · rw [shown]
        exact tracks.shown.trans grown
      · rw [shown]
        exact tracks.positive
      · exact clock ▸ tracks.clock
  | restart =>
      refine ⟨?_, tracks.shown, tracks.positive, tracks.clock⟩
      have same : (state.step .restart).totals = state.totals := rfl
      rw [same, tracks.totals]
      simp [TrafficCounters.step, Volume.add]
  | request now =>
      obtain ⟨_, current, clock, out⟩ := requestUpdate_cases state.monitor now
      have positive : Volume.LE {} state.totals := tracks.positive.trans tracks.shown
      have shown : Volume.ofTotals (state.step (.request now)).monitor.out =
          Volume.ofTotals state.monitor.out ∨
          Volume.ofTotals (state.step (.request now)).monitor.out = state.totals := by
        rw [TrafficCounters.step]
        rcases out with ⟨_, same⟩ | ⟨_, _, same⟩ | ⟨_, _, same⟩
        · exact Or.inl (by rw [same])
        · exact Or.inl (by rw [same]; rfl)
        · exact Or.inr (by rw [same]; rfl)
      refine ⟨?_, ?_, ?_, ?_⟩
      · rw [totals_request, tracks.totals]
        rfl
      · rw [totals_request]
        rcases shown with same | same
        · rw [same]
          exact tracks.shown
        · rw [same]
          exact Volume.LE.refl _
      · rcases shown with same | same
        · rw [same]
          exact tracks.positive
        · rw [same]
          exact positive
      · have later : state.monitor.timestampLast.toInt ≤ now.toInt := admits
        have start := tracks.clock
        have set : (state.step (.request now)).monitor.timestampLast = now := clock
        rw [set]
        omega

/-! ## Returned rates -/

def RatesNonneg (state : TrafficCounters) : Prop :=
  0 ≤ state.monitor.out.txRate.toInt ∧ 0 ≤ state.monitor.out.rxRate.toInt

/-- An update returns rates that are not negative exactly if what it computes fits. -/
theorem Tracks.rates_iff (tracks : state.Tracks) (nonneg : state.RatesNonneg) {now : Long}
    (admits : state.Admits (.request now)) :
    (state.step (.request now)).RatesNonneg ↔ RatesFit state.monitor now := by
  obtain ⟨_, _, _, out⟩ := requestUpdate_cases state.monitor now
  have later : state.monitor.timestampLast.toInt ≤ now.toInt := admits
  have start := tracks.clock
  unfold RatesNonneg RatesFit
  change 0 ≤ (state.monitor.requestUpdate now).2.out.txRate.toInt ∧
    0 ≤ (state.monitor.requestUpdate now).2.out.rxRate.toInt ↔ _
  rcases out with ⟨same, kept⟩ | ⟨_, clean, zero⟩ | ⟨moved, dirty, computed⟩
  · rw [kept]
    exact ⟨fun _ moved => absurd same moved, fun _ => nonneg⟩
  · rw [zero]
    refine ⟨fun _ _ dirty => ?_, fun _ => ⟨Int.le_refl 0, Int.le_refl 0⟩⟩
    rw [clean] at dirty
    cases dirty
  · have apart : state.monitor.timestampLast.toInt ≠ now.toInt := fun same =>
      moved (BitVec.toInt_inj.mp same).symm
    have less : state.monitor.timestampLast.toInt < now.toInt := by omega
    obtain ⟨positiveTx, positiveRx⟩ := tracks.positive
    obtain ⟨grownTx, grownRx⟩ := tracks.shown
    rw [computed]
    have tx := rate_nonneg_iff positiveTx grownTx start less
    have rx := rate_nonneg_iff positiveRx grownRx start less
    exact ⟨fun both _ _ => ⟨tx.mp both.1, rx.mp both.2⟩, fun fits =>
      ⟨tx.mpr (fits moved dirty).1, rx.mpr (fits moved dirty).2⟩⟩

/-! ## Runs -/

theorem run_concat (events : List TrafficEvent) (event : TrafficEvent) :
    run (events ++ [event]) = (run events).step event :=
  Machine.run_concat step {} events event

variable {events : List TrafficEvent}

theorem tracks_run (lawful : Lawful events) (alone : Alone events)
    {first second : List TrafficEvent} (split : events = first ++ second) : (run first).Tracks := by
  have both : Machine.Along step
      (fun state event => state.Admits event ∧ state.ReportsAlone event) {} events :=
    fun first event second split => ⟨lawful first event second split, alone first event second split⟩
  have start : ({} : TrafficCounters).Tracks :=
    ⟨rfl, Volume.LE.refl _, Volume.LE.refl _, Int.le_refl 0⟩
  exact Machine.along_invariant Tracks (fun _ _ tracks here => tracks.step here.1 here.2) start
    both split

/-- Rates that are not negative when they are returned are never negative. -/
theorem ratesNonneg_run
    (returned : ∀ first now second, events = first ++ .request now :: second →
      (run first).RatesNonneg → ((run first).step (.request now)).RatesNonneg)
    {first second : List TrafficEvent} (split : events = first ++ second) :
    (run first).RatesNonneg := by
  induction first using List.reverseRecOn generalizing second with
  | nil => exact ⟨Int.le_refl 0, Int.le_refl 0⟩
  | append_singleton first event ih =>
      rw [List.append_assoc] at split
      have before := ih split
      rw [run_concat]
      cases event with
      | packet packet =>
          obtain ⟨_, _, out, _⟩ := report_spec (run first).monitor packet.tx packet.rx
          have same : ((run first).step (.packet packet)).monitor.out = (run first).monitor.out :=
            out
          rw [RatesNonneg, same]
          exact before
      | restart => exact before
      | request now => exact returned first now second split before

theorem alone_of_accurate (accurate : Accurate events) : Alone events := by
  rintro first _ second split packet rfl
  have sums := accurate.equal (first ++ [.packet packet]) second (by simp [split])
  rw [run_concat, totals_packet] at sums
  change (run first).earlier = {}
  have kept : ((run first).step (.packet packet)).earlier = (run first).earlier := rfl
  have latest : ((run first).step (.packet packet)).latest = Volume.ofPacket packet := rfl
  rw [kept, latest] at sums
  have tx := congrArg Volume.tx sums
  have rx := congrArg Volume.rx sums
  simp only [Volume.add] at tx rx
  cases earlier : (run first).earlier with
  | mk earlierTx earlierRx =>
      rw [earlier] at tx rx
      simp only at tx rx
      have txZero : earlierTx = 0 := by omega
      have rxZero : earlierRx = 0 := by omega
      rw [txZero, rxZero]

/-- For processes that count from zero and a clock that does not go back, the totals
and the rates are right exactly if only one process of the session counts anything
that is followed by a report, and no growth between two updates overflows. -/
theorem accurate_iff (events : List TrafficEvent) (lawful : Lawful events) :
    Accurate events ↔ Alone events ∧ Small events := by
  constructor
  · intro accurate
    have alone := alone_of_accurate accurate
    refine ⟨alone, ?_⟩
    rintro first _ second split now rfl
    have tracks := tracks_run lawful alone split
    have returned : ∀ first now second, events = first ++ .request now :: second →
        ((run first).step (.request now)).RatesNonneg := by
      intro first now second split
      have rates := accurate.rates first now second split
      rwa [(requestUpdate_cases (run first).monitor now).1] at rates
    have nonneg := ratesNonneg_run (fun first now second split _ =>
      returned first now second split) split
    exact (tracks.rates_iff nonneg (lawful _ _ _ split)).mp (returned first now second split)
  · rintro ⟨alone, small⟩
    have returned : ∀ first now second, events = first ++ .request now :: second →
        (run first).RatesNonneg → ((run first).step (.request now)).RatesNonneg := by
      intro first now second split nonneg
      exact ((tracks_run lawful alone split).rates_iff nonneg (lawful _ _ _ split)).mpr
        (small first _ second split now rfl)
    refine ⟨?_, ?_, ?_⟩
    · intro first second split
      exact (tracks_run lawful alone split).totals
    · intro first event second split
      rw [run_concat]
      exact (tracks_run lawful alone split).totals_le (lawful _ _ _ split) (alone _ _ _ split)
    · intro first now second split
      rw [(requestUpdate_cases (run first).monitor now).1]
      exact returned first now second split (ratesNonneg_run returned split)

/-- The first process ends before it has counted anything, and the second one reports
5 and 7 bytes. -/
def restartedEarly : List TrafficEvent := [.restart, .packet samplePacket, .request 1000]

theorem accurate_restartedEarly : Lawful restartedEarly ∧ Accurate restartedEarly := by
  have lawful : Lawful restartedEarly := by
    simp only [Lawful, restartedEarly, Machine.along_cons, Machine.along_nil, and_true]
    decide
  have alone : Alone restartedEarly := by
    simp only [Alone, restartedEarly, Machine.along_cons, Machine.along_nil, and_true]
    refine ⟨fun _ absurdity => (nomatch absurdity), fun _ _ => rfl,
      fun _ absurdity => (nomatch absurdity)⟩
  have small : Small restartedEarly := by
    simp only [Small, restartedEarly, Machine.along_cons, Machine.along_nil, and_true]
    refine ⟨fun _ absurdity => (nomatch absurdity), fun _ absurdity => (nomatch absurdity), ?_⟩
    rintro now same _ _
    cases same
    exact ⟨fits_of_small (by decide) (by decide) (by decide),
      fits_of_small (by decide) (by decide) (by decide)⟩
  exact ⟨lawful, (accurate_iff restartedEarly lawful).mpr ⟨alone, small⟩⟩

def smallerPacket : StatPacket where
  bytes := [3, 0, 0, 0, 0, 0, 0, 0, 3, 0, 0, 0, 0, 0, 0, 0]
  size := rfl

/-- A process reports 5 and 7 bytes, and after a restart the next one reports 3 and 3:
the totals go down to 3 and 3, and the next update returns negative rates. -/
theorem not_accurate_restart :
    let events : List TrafficEvent :=
      [.packet samplePacket, .request 1000, .restart, .packet smallerPacket, .request 2000]
    Lawful events ∧ (run (events.take 3)).totals = ⟨5, 7⟩ ∧ (run events).totals = ⟨3, 3⟩ ∧
      (run events).monitor.out.txRate.toInt = -2 ∧ (run events).monitor.out.rxRate.toInt = -4 ∧
      ¬ Accurate events := by
  refine ⟨?_, rfl, rfl, rfl, rfl, ?_⟩
  · simp only [Lawful, Machine.along_cons, Machine.along_nil, and_true]
    decide
  · intro accurate
    have sums := accurate.equal _ [] (List.append_nil _).symm
    have wrong := congrArg Volume.tx sums
    exact absurd wrong (by decide)

end TrafficCounters

end AlienConnection.Bg
