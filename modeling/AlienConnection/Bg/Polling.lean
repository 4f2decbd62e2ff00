import AlienConnection.Bg.TrafficCounters

/-!
# Polling a traffic monitor

The monitor keeps a flag for new counters, the time of its last update and the totals it has
published, and these advance at different moments: a call without elapsed time moves only the
time. Beside the monitor it is recorded what it was told and what it has answered. An update
after some time publishes the latest counters, and its rates are those of the bytes counted
since the update before that took time. What is not flagged has not changed, so the loop that
asks for updates may leave out the rounds without a flag.
-/

namespace AlienConnection.Bg

open Database Library

/-- A packet of the native client, or a call of `requestUpdate` at a time of the clock. -/
inductive PollEvent where
  | packet (packet : StatPacket)
  | request (now : Long)

/-- A monitor with the counters of the latest packet, those at the last request with elapsed
time, the time of the last request, and its result. -/
structure Polling where
  monitor : TrafficMonitor := {}
  latest : Volume := {}
  counted : Volume := {}
  clock : Int := 0
  shown : TrafficStats := {}

namespace Polling

def step (state : Polling) : PollEvent → Polling
  | .packet packet =>
      { state with
        monitor := state.monitor.report packet.tx packet.rx
        latest := Volume.ofPacket packet }
  | .request now =>
      { state with
        monitor := (state.monitor.requestUpdate now).2
        counted := if state.clock < now.toInt then state.latest else state.counted
        clock := now.toInt
        shown := (state.monitor.requestUpdate now).1.1 }

def run (events : List PollEvent) : Polling := Machine.run step {} events

def counterBound : Int := 2 ^ 53

/-- An event can come next: the counters and the clock do not go back. -/
def Admits (state : Polling) : PollEvent → Prop
  | .packet packet =>
      state.latest.LE (Volume.ofPacket packet) ∧ (Volume.ofPacket packet).tx < counterBound ∧
        (Volume.ofPacket packet).rx < counterBound
  | .request now => 0 < now.toInt ∧ state.clock ≤ now.toInt

instance (state : Polling) : DecidablePred state.Admits
  | .packet _ => inferInstanceAs (Decidable (_ ∧ _ ∧ _))
  | .request _ => inferInstanceAs (Decidable (_ ∧ _))

def Lawful (events : List PollEvent) : Prop := Machine.Along step Admits {} events

/-- What a request answers: after some time the latest counters, and the rates of what was
counted since; and something else than before only with the flag. -/
structure Answers (state : Polling) (now : Long) (answer : TrafficStats × Bool) : Prop where
  totals : state.clock < now.toInt → Volume.ofTotals answer.1 = state.latest
  txRate : state.clock < now.toInt → answer.1.txRate.toInt =
    1000 * (state.latest.tx - state.counted.tx) / (now.toInt - state.clock)
  rxRate : state.clock < now.toInt → answer.1.rxRate.toInt =
    1000 * (state.latest.rx - state.counted.rx) / (now.toInt - state.clock)
  unflagged : answer.2 = false → answer.1 = state.shown

/-! ## One step -/

/-- A rate of counters that do not go back is the quotient rounded down. -/
theorem toInt_rate {total before now last : Long} (nonneg : 0 ≤ before.toInt)
    (grown : before.toInt ≤ total.toInt) (small : total.toInt < counterBound)
    (clock : 0 ≤ last.toInt) (later : last.toInt < now.toInt) :
    (TrafficMonitor.rate total before (now - last)).toInt =
      1000 * (total.toInt - before.toInt) / (now.toInt - last.toInt) := by
  have elapsed := TrafficCounters.toInt_sub_of_le clock (Int.le_of_lt later)
  have growth := TrafficCounters.toInt_sub_of_le nonneg grown
  have divisor : now - last ≠ -1#64 := by
    intro same
    rw [same] at elapsed
    have minus : (-1#64 : Long).toInt = -1 := by decide
    omega
  have thousand : (1000 : Long).toInt = 1000 := by decide
  unfold counterBound at small
  have product : ((total.toInt - before.toInt) * 1000).bmod (2 ^ 64) =
      (total.toInt - before.toInt) * 1000 := by
    apply Int.bmod_eq_of_le_mul_two <;> omega
  rw [TrafficMonitor.rate, BitVec.toInt_sdiv_of_ne_or_ne _ _ (Or.inr divisor), BitVec.toInt_mul,
    growth, elapsed, thousand, product, Int.tdiv_eq_ediv_of_nonneg (by omega), Int.mul_comm]

/-- An update after some time takes the flag for new counters down. -/
theorem dirty_requestUpdate (monitor : TrafficMonitor) (now : Long) :
    (monitor.requestUpdate now).2.dirty =
      if now = monitor.timestampLast then monitor.dirty else false := by
  unfold TrafficMonitor.requestUpdate
  by_cases same : now = monitor.timestampLast
  · have still : ¬ now - monitor.timestampLast ≠ 0 := by simp [same]
    simp only [if_neg still, if_pos same]
  · have moved : now - monitor.timestampLast ≠ 0 := sub_ne_zero.mpr same
    simp only [if_pos moved, if_neg same]
    cases dirty : monitor.dirty <;> rfl

/-- What is not flagged has not changed, in any state of a monitor. -/
theorem out_of_unflagged {monitor : TrafficMonitor} {now : Long}
    (unflagged : (monitor.requestUpdate now).1.2 = false) :
    (monitor.requestUpdate now).2.out = monitor.out := by
  rcases (TrafficCounters.requestUpdate_cases monitor now).2.2.2 with
    ⟨_, same⟩ | ⟨moved, clean, out⟩ | ⟨moved, dirty, _⟩
  · exact same
  · have elapsed : now - monitor.timestampLast ≠ 0 := sub_ne_zero.mpr moved
    have flag : (monitor.requestUpdate now).1.2 =
        (decide (monitor.out.txRate ≠ 0) || decide (monitor.out.rxRate ≠ 0)) := by
      simp only [TrafficMonitor.requestUpdate, if_pos elapsed, clean]
      rfl
    rw [flag, Bool.or_eq_false_iff, decide_eq_false_iff_not, decide_eq_false_iff_not, not_not,
      not_not] at unflagged
    obtain ⟨txRate, rxRate⟩ := unflagged
    rw [out]
    obtain ⟨current, ⟨tx, rx, txTotal, rxTotal⟩⟩ := monitor
    cases txRate
    cases rxRate
    rfl
  · have elapsed : now - monitor.timestampLast ≠ 0 := sub_ne_zero.mpr moved
    have flag : (monitor.requestUpdate now).1.2 = true := by
      simp only [TrafficMonitor.requestUpdate, if_pos elapsed, dirty]
      rfl
    rw [flag] at unflagged
    cases unflagged

theorem reportTx_of_clean {monitor : TrafficMonitor} {tx : Long}
    (clean : (monitor.reportTx tx).dirty = false) :
    monitor.reportTx tx = monitor ∧ monitor.current.txTotal = tx := by
  unfold TrafficMonitor.reportTx at clean ⊢
  split at clean
  · cases clean
  next same => exact ⟨if_neg same, not_not.mp same⟩

theorem reportRx_of_clean {monitor : TrafficMonitor} {rx : Long}
    (clean : (monitor.reportRx rx).dirty = false) :
    monitor.reportRx rx = monitor ∧ monitor.current.rxTotal = rx := by
  unfold TrafficMonitor.reportRx at clean ⊢
  split at clean
  · cases clean
  next same => exact ⟨if_neg same, not_not.mp same⟩

/-- New counters set the flag: without it, they are those from before. -/
theorem report_of_clean {monitor : TrafficMonitor} {tx rx : Long}
    (clean : (monitor.report tx rx).dirty = false) :
    monitor.dirty = false ∧ monitor.current.txTotal = tx ∧ monitor.current.rxTotal = rx := by
  obtain ⟨received, sameRx⟩ := reportRx_of_clean clean
  rw [TrafficMonitor.report, received] at clean
  obtain ⟨sent, sameTx⟩ := reportTx_of_clean clean
  rw [sent] at clean sameRx
  exact ⟨clean, sameTx, sameRx⟩

/-! ## Runs -/

structure Tracks (state : Polling) : Prop where
  totals : Volume.ofTotals state.monitor.current = state.latest
  published : Volume.ofTotals state.monitor.out = state.counted
  shown : state.monitor.out = state.shown
  clean : state.monitor.dirty = false → state.latest = state.counted
  clock : state.monitor.timestampLast.toInt = state.clock
  started : 0 ≤ state.clock
  nonneg : Volume.LE {} state.counted
  grown : state.counted.LE state.latest
  small : state.latest.tx < counterBound ∧ state.latest.rx < counterBound

variable {state : Polling} {event : PollEvent}

theorem tracks_start : Tracks {} where
  totals := rfl
  published := rfl
  shown := rfl
  clean := fun _ => rfl
  clock := rfl
  started := Int.le_refl _
  nonneg := Volume.LE.refl _
  grown := Volume.LE.refl _
  small := by decide

theorem Tracks.packet (tracks : state.Tracks) {packet : StatPacket}
    (admits : state.Admits (.packet packet)) : (state.step (.packet packet)).Tracks := by
  obtain ⟨above, small⟩ := admits
  obtain ⟨tx, rx, out, time⟩ := TrafficCounters.report_spec state.monitor packet.tx packet.rx
  constructor
  case totals => simp only [step, Volume.ofTotals, tx, rx, Volume.ofPacket]
  case published =>
    simp only [step, out]
    exact tracks.published
  case shown => exact out.trans tracks.shown
  case clean =>
    intro clean
    obtain ⟨before, sameTx, sameRx⟩ := report_of_clean clean
    have told : Volume.ofPacket packet = state.latest := by
      rw [← tracks.totals, Volume.ofPacket, Volume.ofTotals, sameTx, sameRx]
    exact told.trans (tracks.clean before)
  case clock => exact (congrArg BitVec.toInt time).trans tracks.clock
  case started => exact tracks.started
  case nonneg => exact tracks.nonneg
  case grown => exact tracks.grown.trans above
  case small => exact small

/-- The clock stands still exactly if no time has elapsed. -/
theorem Tracks.still_iff (tracks : state.Tracks) {now : Long} :
    now = state.monitor.timestampLast ↔ now.toInt = state.clock := by
  rw [← tracks.clock]
  exact BitVec.toInt_inj.symm

/-- The answer to a request. -/
theorem Tracks.answers (tracks : state.Tracks) (now : Long) :
    state.Answers now (state.monitor.requestUpdate now).1 := by
  obtain ⟨result, _, _, cases⟩ := TrafficCounters.requestUpdate_cases state.monitor now
  have unflagged : (state.monitor.requestUpdate now).1.2 = false →
      (state.monitor.requestUpdate now).1.1 = state.shown := fun unflagged =>
    result.trans ((out_of_unflagged unflagged).trans tracks.shown)
  have totals := tracks.totals
  have published := tracks.published
  have nonneg := tracks.nonneg
  have grown := tracks.grown
  rcases cases with ⟨still, _⟩ | ⟨_, clean, out⟩ | ⟨_, dirty, out⟩
  · -- without elapsed time nothing is said about the totals
    have stands := tracks.still_iff.mp still
    exact ⟨fun later => by omega, fun later => by omega, fun later => by omega, unflagged⟩
  · have none := tracks.clean clean
    refine ⟨fun _ => ?_, fun _ => ?_, fun _ => ?_, unflagged⟩
    · rw [result, out]
      exact published.trans none.symm
    · rw [result, out, none, Int.sub_self, Int.mul_zero, Int.zero_ediv]
      rfl
    · rw [result, out, none, Int.sub_self, Int.mul_zero, Int.zero_ediv]
      rfl
  · rw [← published, ← totals] at grown
    rw [← published] at nonneg
    have small := tracks.small
    rw [← totals] at small
    have started := tracks.started
    rw [← tracks.clock] at started
    have rates : ∀ later : state.clock < now.toInt,
        state.monitor.timestampLast.toInt < now.toInt := fun later => tracks.clock ▸ later
    refine ⟨fun _ => ?_, fun later => ?_, fun later => ?_, unflagged⟩
    · rw [result, out]
      exact totals
    · rw [result, out, ← totals, ← published, ← tracks.clock]
      exact toInt_rate nonneg.1 grown.1 small.1 started (rates later)
    · rw [result, out, ← totals, ← published, ← tracks.clock]
      exact toInt_rate nonneg.2 grown.2 small.2 started (rates later)

theorem Tracks.request (tracks : state.Tracks) {now : Long}
    (admits : state.Admits (.request now)) : (state.step (.request now)).Tracks := by
  obtain ⟨result, current, time, cases⟩ := TrafficCounters.requestUpdate_cases state.monitor now
  have totals : Volume.ofTotals (state.monitor.requestUpdate now).2.current = state.latest := by
    rw [current]
    exact tracks.totals
  have flag := dirty_requestUpdate state.monitor now
  by_cases later : state.clock < now.toInt
  · -- what is published is what was counted last
    have moved : now ≠ state.monitor.timestampLast := fun still => by
      have stands := tracks.still_iff.mp still
      omega
    rw [if_neg moved] at flag
    have published := (tracks.answers now).totals later
    constructor <;> simp only [step, if_pos later]
    case totals => exact totals
    case published => rw [← result]; exact published
    case shown => exact result.symm
    case clean => exact fun _ => trivial
    case clock => rw [time]
    case started => exact Int.le_trans (Int.le_of_lt admits.1) (Int.le_refl _)
    case nonneg => exact tracks.nonneg.trans tracks.grown
    case grown => exact Volume.LE.refl _
    case small => exact tracks.small
  · have stands : now.toInt = state.clock := Int.le_antisymm (Int.not_lt.mp later) admits.2
    have still := tracks.still_iff.mpr stands
    have out : (state.monitor.requestUpdate now).2.out = state.monitor.out := by
      rcases cases with ⟨_, same⟩ | ⟨moved, _⟩ | ⟨moved, _⟩
      · exact same
      · exact absurd still moved
      · exact absurd still moved
    rw [if_pos still] at flag
    constructor <;> simp only [step, if_neg later]
    case totals => exact totals
    case published => rw [out]; exact tracks.published
    case shown => exact result.symm
    case clean => rw [flag]; exact tracks.clean
    case clock => rw [time]
    case started => exact Int.le_of_lt admits.1
    case nonneg => exact tracks.nonneg
    case grown => exact tracks.grown
    case small => exact tracks.small

theorem Tracks.step (tracks : state.Tracks) (admits : state.Admits event) :
    (state.step event).Tracks := by
  cases event with
  | packet packet => exact tracks.packet admits
  | request now => exact tracks.request admits

theorem tracks_run {events before after : List PollEvent} (lawful : Lawful events)
    (split : events = before ++ after) : (run before).Tracks :=
  Machine.along_invariant Tracks (fun _ _ tracks admits => tracks.step admits) tracks_start lawful
    split

end Polling

/-! ## The loop -/

namespace TrafficStats

def plus (first second : TrafficStats) : TrafficStats where
  txRate := first.txRate + second.txRate
  rxRate := first.rxRate + second.rxRate
  txTotal := first.txTotal + second.txTotal
  rxTotal := first.rxTotal + second.rxTotal

end TrafficStats

/-- A proxy as the loop sees it: the key of its profile, its monitor, if there is one yet, and
the clock when the loop asks it. -/
structure Polled where
  profileId : Int
  trafficMonitor : Option TrafficMonitor
  now : Long

namespace BandwidthLoop

def stats (proxies : List Polled) : List (Int × TrafficStats × Bool) :=
  proxies.filterMap fun proxy => proxy.trafficMonitor.map fun monitor =>
    (proxy.profileId, (monitor.requestUpdate proxy.now).1)

def sum (stats : List (Int × TrafficStats × Bool)) : TrafficStats :=
  stats.foldl (fun sum answer => sum.plus answer.2.1) {}

/-- What one round of `loop` sends to every listener, if it broadcasts. -/
def round (connected listening : Bool) (proxies : List Polled) :
    Option (List (Int × TrafficStats)) :=
  if (stats proxies).any (fun answer => answer.2.2) && connected && listening then
    some ((stats proxies).map (fun answer => (answer.1, answer.2.1)) ++
      [(0, sum (stats proxies))])
  else none

/-- A round for listeners of a connected service sends the new stats of every monitor that
has changed. -/
theorem sent_of_changed {proxies : List Polled} {proxy : Polled} (listed : proxy ∈ proxies)
    {monitor : TrafficMonitor} (monitored : proxy.trafficMonitor = some monitor)
    (changed : (monitor.requestUpdate proxy.now).2.out ≠ monitor.out) :
    ∃ sent, round true true proxies = some sent ∧
      (proxy.profileId, (monitor.requestUpdate proxy.now).2.out) ∈ sent := by
  have answer : (proxy.profileId, (monitor.requestUpdate proxy.now).1) ∈ stats proxies :=
    List.mem_filterMap.mpr ⟨proxy, listed, by rw [monitored]; rfl⟩
  have flagged : (monitor.requestUpdate proxy.now).1.2 = true := by
    by_contra unflagged
    exact changed (Polling.out_of_unflagged (Bool.eq_false_of_not_eq_true unflagged))
  have broadcast : (stats proxies).any (fun answer => answer.2.2) = true :=
    List.any_eq_true.mpr ⟨_, answer, flagged⟩
  refine ⟨_, by rw [round, broadcast]; rfl, List.mem_append_left _ ?_⟩
  refine List.mem_map.mpr ⟨_, answer, ?_⟩
  rw [(TrafficCounters.requestUpdate_cases monitor proxy.now).1]

end BandwidthLoop

namespace Polling

/-- **Polling loses no traffic.** In every sequence of packets and requests whose counters and
clock do not go back, a request after some time answers the latest counters and the rates of
what was counted since, and without the flag the answer is the one before. A round of the loop
sends the new stats of every monitor that has changed. -/
theorem polling_loses_no_traffic (events : List PollEvent) (lawful : Lawful events) :
    (∀ before now after, events = before ++ .request now :: after →
      (run before).Answers now ((run before).monitor.requestUpdate now).1 ∧
      ((run before).monitor.requestUpdate now).2.out =
        ((run before).monitor.requestUpdate now).1.1) ∧
    ∀ proxies, ∀ proxy ∈ proxies, ∀ monitor, proxy.trafficMonitor = some monitor →
      (monitor.requestUpdate proxy.now).2.out ≠ monitor.out →
        ∃ sent, BandwidthLoop.round true true proxies = some sent ∧
          (proxy.profileId, (monitor.requestUpdate proxy.now).2.out) ∈ sent := by
  constructor
  · intro before now after split
    exact ⟨(tracks_run lawful split).answers now,
      (TrafficCounters.requestUpdate_cases (run before).monitor now).1.symm⟩
  · intro proxies proxy listed monitor monitored changed
    exact BandwidthLoop.sent_of_changed listed monitored changed

def polledTwice : List PollEvent :=
  [.packet TrafficCounters.smallerPacket, .request 1000, .packet samplePacket, .request 1000,
    .request 2000]

/-- The last request has a second in which 2 and 4 bytes were counted. -/
theorem polling_polledTwice :
    Lawful polledTwice ∧ (run (polledTwice.take 4)).Answers 2000
      ((run (polledTwice.take 4)).monitor.requestUpdate 2000).1 ∧
      ((run (polledTwice.take 4)).monitor.requestUpdate 2000).1.1 = ⟨2, 4, 5, 7⟩ := by
  have lawful : Lawful polledTwice := by
    simp only [Lawful, polledTwice, Machine.along_cons, Machine.along_nil, and_true]
    decide
  exact ⟨lawful, ((polling_loses_no_traffic polledTwice lawful).1 _ 2000 [] rfl).1, rfl⟩

end Polling

end AlienConnection.Bg
