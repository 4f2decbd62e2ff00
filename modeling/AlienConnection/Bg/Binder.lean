import AlienConnection.Bg.Polling
import AlienConnection.Library.LinkedMap

/-!
# The binder of the service

Clients listen for bandwidth with a timeout of their own, and one loop serves them all. It is
launched for the first listener and cancelled with the last one. Everything happens in
coroutines on the main thread, one turn after the other. A turn that was posted to the thread
runs a nested coroutine in place, up to its first suspension; a turn that was called on the
thread runs it when the turn is over. A delay of no time does not suspend, so a loop without a
positive timeout keeps the thread.
-/

namespace AlienConnection.Bg

open Library

structure ServiceView where
  connected : Bool := false
  proxy : Option Polled := none
  udpFallback : Option Polled := none

namespace ServiceView

def proxies (data : ServiceView) : List Polled := [data.proxy, data.udpFallback].reduceOption

def shown (polled : Polled) : TrafficStats :=
  (polled.trafficMonitor.map TrafficMonitor.out).getD {}

/-- What a new listener is sent: the statistics shown last, and their sum. -/
def greeting (data : ServiceView) : List (Int × TrafficStats) :=
  if data.connected then
    match data.proxy with
    | none => []
    | some proxy =>
        let polled := proxy :: data.udpFallback.toList
        polled.map (fun polled => (polled.profileId, shown polled)) ++
          [(0, polled.foldl (fun sum polled => sum.plus (shown polled)) {})]
  else []

end ServiceView

inductive BinderFailure where
  | checkFailed
  | nullPointer
  deriving DecidableEq

/-- The loops are those that were launched and neither cancelled nor finished. The thread
spins when a loop does not suspend. -/
structure Binder (κ : Type) where
  callbacks : List κ := []
  bandwidthListeners : List (κ × Int) := []
  looper : Option Nat := none
  launched : Nat := 0
  loops : List Nat := []
  failure : Option BinderFailure := none
  spinning : Bool := false
  sent : List (κ × Int × TrafficStats) := []

/-- A call of a client, the death of a callback, or the end of the delay of a loop. -/
inductive BinderEvent (κ : Type) where
  | register (cb : κ)
  | start (posted : Bool) (cb : κ) (timeout : Int) (data : ServiceView)
  | stop (cb : κ)
  | unregister (cb : κ)
  | died (cb : κ)
  | wake (job : Nat) (data : ServiceView)

namespace Binder

variable {κ : Type} [DecidableEq κ]

inductive Pause where
  | returns
  | spins
  | waits
  deriving DecidableEq

def pause (listeners : List (κ × Int)) : Pause :=
  match (listeners.map Prod.snd).min? with
  | none => .returns
  | some timeout => if timeout ≤ 0 then .spins else .waits

def send (state : Binder κ) (cb : κ) (messages : List (Int × TrafficStats)) : Binder κ :=
  { state with sent := state.sent ++ messages.map (fun message => (cb, message)) }

def listen (state : Binder κ) (cb : κ) (timeout : Int) : Binder κ :=
  { state with bandwidthListeners := LinkedMap.put cb timeout state.bandwidthListeners }

/-- `looper = launch { loop() }`. In place, a loop that spins is never assigned. -/
def launchLoop (state : Binder κ) (inPlace : Bool) : Binder κ :=
  let spins := decide (pause state.bandwidthListeners = .spins)
  { state with
    looper := if inPlace && spins then state.looper else some state.launched
    launched := state.launched + 1
    loops := state.launched :: state.loops
    spinning := spins }

def startListeningForBandwidth (state : Binder κ) (posted : Bool) (cb : κ) (timeout : Int)
    (data : ServiceView) : Binder κ :=
  let listening := state.listen cb timeout
  -- Both operands of the condition are evaluated.
  if state.bandwidthListeners.isEmpty && (LinkedMap.get cb state.bandwidthListeners).isNone then
    if state.looper.isSome then { listening with failure := some .checkFailed }
    else
      let launched := listening.launchLoop posted
      if posted && launched.spinning then launched else launched.send cb data.greeting
  else listening.send cb data.greeting

def stopListeningForBandwidth (state : Binder κ) (cb : κ) : Binder κ :=
  let remaining := LinkedMap.remove cb state.bandwidthListeners
  if (LinkedMap.get cb state.bandwidthListeners).isSome && remaining.isEmpty then
    match state.looper with
    | none => { state with bandwidthListeners := remaining, failure := some .nullPointer }
    | some job =>
        { state with
          bandwidthListeners := remaining
          looper := none
          loops := state.loops.filter (fun other => decide (other ≠ job)) }
  else { state with bandwidthListeners := remaining }

def unregisterCallback (state : Binder κ) (cb : κ) : Binder κ :=
  let stopped := state.stopListeningForBandwidth cb
  { stopped with callbacks := stopped.callbacks.filter (fun other => decide (other ≠ cb)) }

def loop (state : Binder κ) (job : Nat) (data : ServiceView) : Binder κ :=
  let listeners := state.callbacks.filter (fun cb => decide (cb ∈ LinkedMap.keys
    state.bandwidthListeners))
  let messages := (BandwidthLoop.round data.connected (!state.bandwidthListeners.isEmpty)
    data.proxies).getD []
  let told := listeners.foldl (fun state cb => state.send cb messages) state
  match pause state.bandwidthListeners with
  | .returns => { told with loops := told.loops.filter (fun other => decide (other ≠ job)) }
  | .spins => { told with spinning := true }
  | .waits => told

def turn (state : Binder κ) : BinderEvent κ → Binder κ
  | .register cb =>
      if cb ∈ state.callbacks then state else { state with callbacks := state.callbacks ++ [cb] }
  | .start posted cb timeout data => state.startListeningForBandwidth posted cb timeout data
  | .stop cb => state.stopListeningForBandwidth cb
  | .unregister cb => state.unregisterCallback cb
  | .died cb => state.unregisterCallback cb
  | .wake job data => if job ∈ state.loops then state.loop job data else state

/-- Once the thread spins or the scope has failed, there are no more turns. -/
def step (state : Binder κ) (event : BinderEvent κ) : Binder κ :=
  if state.spinning || state.failure.isSome then state else state.turn event

def run (events : List (BinderEvent κ)) : Binder κ := Machine.run step {} events

/-- The looper is there exactly while there are listeners, neither check has failed, and at
most one loop is running. -/
structure Sound (state : Binder κ) : Prop where
  looper : state.looper.isSome = true ↔ state.bandwidthListeners ≠ []
  unfailed : state.failure = none
  single : state.loops.length ≤ 1

/-- A posted call that finds no listener has a positive timeout. -/
def Heeds (state : Binder κ) (event : BinderEvent κ) : Prop :=
  ∀ cb timeout data, event = .start true cb timeout data → state.spinning = false →
    state.bandwidthListeners = [] → 0 < timeout

/-! ## Turns -/

/-- The loop that runs is the one that the looper refers to. -/
structure Coupled (state : Binder κ) : Prop where
  unfailed : state.failure = none
  idle : state.bandwidthListeners = [] → state.looper = none ∧ state.loops = []
  busy : state.bandwidthListeners ≠ [] → ∃ job, state.looper = some job ∧ state.loops = [job]

variable {state : Binder κ}

omit [DecidableEq κ] in
theorem Coupled.sound (coupled : state.Coupled) : state.Sound := by
  by_cases empty : state.bandwidthListeners = []
  · obtain ⟨looper, loops⟩ := coupled.idle empty
    exact ⟨by simp [looper, empty], coupled.unfailed, by simp [loops]⟩
  · obtain ⟨job, looper, loops⟩ := coupled.busy empty
    exact ⟨by simp [looper, empty], coupled.unfailed, by simp [loops]⟩

omit [DecidableEq κ] in
/-- Messages and registrations are no matter of the looper. -/
theorem Coupled.congr (coupled : state.Coupled) {next : Binder κ}
    (listeners : next.bandwidthListeners = state.bandwidthListeners)
    (looper : next.looper = state.looper) (loops : next.loops = state.loops)
    (failure : next.failure = state.failure) : next.Coupled where
  unfailed := failure.trans coupled.unfailed
  idle := by
    rw [listeners, looper, loops]
    exact coupled.idle
  busy := by
    rw [listeners, looper, loops]
    exact coupled.busy

omit [DecidableEq κ] in
theorem Coupled.send (coupled : state.Coupled) (cb : κ) (messages : List (Int × TrafficStats)) :
    (state.send cb messages).Coupled :=
  coupled.congr rfl rfl rfl rfl

omit [DecidableEq κ] in
theorem Coupled.foldl_send (coupled : state.Coupled) (listeners : List κ)
    (messages : List (Int × TrafficStats)) :
    (listeners.foldl (fun state cb => state.send cb messages) state).Coupled := by
  induction listeners generalizing state with
  | nil => exact coupled
  | cons cb rest ih => exact ih (coupled.send cb messages)

/-- A listener that replaces its timeout or joins others. -/
theorem Coupled.join (coupled : state.Coupled) (nonempty : state.bandwidthListeners ≠ []) (cb : κ)
    (timeout : Int) : (state.listen cb timeout).Coupled where
  unfailed := coupled.unfailed
  idle := by
    intro empty
    have listed : cb ∈ LinkedMap.keys (state.listen cb timeout).bandwidthListeners :=
      LinkedMap.mem_keys_put.mpr (Or.inl rfl)
    rw [empty] at listed
    cases listed
  busy := fun _ => coupled.busy nonempty

/-- The first listener has the loop launched. -/
theorem Coupled.start_first (coupled : state.Coupled) (empty : state.bandwidthListeners = [])
    (posted : Bool) (cb : κ) (timeout : Int) (data : ServiceView) :
    state.startListeningForBandwidth posted cb timeout data =
      if posted && ((state.listen cb timeout).launchLoop posted).spinning then
        (state.listen cb timeout).launchLoop posted
      else ((state.listen cb timeout).launchLoop posted).send cb data.greeting := by
  have launch : (state.bandwidthListeners.isEmpty &&
      (LinkedMap.get cb state.bandwidthListeners).isNone) = true := by
    rw [empty]
    rfl
  have unset : ¬ state.looper.isSome = true := by simp [(coupled.idle empty).1]
  rw [startListeningForBandwidth, if_pos launch, if_neg unset]

theorem listen_first (empty : state.bandwidthListeners = []) (cb : κ) (timeout : Int) :
    (state.listen cb timeout).bandwidthListeners = [(cb, timeout)] := by
  rw [listen, empty]
  rfl

omit [DecidableEq κ] in
/-- A single listener makes the loop spin if its timeout is not positive. -/
theorem pause_singleton (cb : κ) (timeout : Int) :
    pause [(cb, timeout)] = if timeout ≤ 0 then .spins else .waits := rfl

/-- The looper refers to the loop that was launched, unless that spins in place. -/
theorem Coupled.launch (coupled : state.Coupled) (empty : state.bandwidthListeners = [])
    {posted : Bool} (cb : κ) {timeout : Int} (fine : posted = false ∨ 0 < timeout) :
    ((state.listen cb timeout).launchLoop posted).Coupled := by
  obtain ⟨_, loops⟩ := coupled.idle empty
  have listeners := listen_first empty cb timeout
  refine ⟨coupled.unfailed, ?_, fun _ => ⟨state.launched, ?_, ?_⟩⟩
  · intro none
    rw [launchLoop, listeners] at none
    cases none
  · have assigned : ¬ (posted && decide (pause [(cb, timeout)] = .spins)) = true := by
      rcases fine with called | positive
      · simp [called]
      · simp [pause_singleton, Int.not_le.mpr positive]
    rw [launchLoop, listeners]
    exact if_neg assigned
  · exact congrArg (List.cons state.launched) loops

/-- In place and without a positive timeout, the looper is never assigned. -/
theorem Coupled.launch_spins (coupled : state.Coupled) (empty : state.bandwidthListeners = [])
    (cb : κ) {timeout : Int} (idle : timeout ≤ 0) (data : ServiceView) :
    (state.startListeningForBandwidth true cb timeout data).bandwidthListeners =
        [(cb, timeout)] ∧
      (state.startListeningForBandwidth true cb timeout data).looper = none := by
  have listeners := listen_first empty cb timeout
  have spins : ((state.listen cb timeout).launchLoop true).spinning = true := by
    rw [launchLoop, listeners]
    simp [pause_singleton, idle]
  rw [coupled.start_first empty, spins, Bool.and_self, if_pos rfl]
  refine ⟨listeners, ?_⟩
  rw [launchLoop, listeners]
  simp [pause_singleton, idle, listen, (coupled.idle empty).1]

/-- Whoever stops listening, the loop goes with the last listener and not before. -/
theorem Coupled.stop (coupled : state.Coupled) (cb : κ) :
    (state.stopListeningForBandwidth cb).Coupled := by
  rw [stopListeningForBandwidth]
  split
  next last =>
    rw [Bool.and_eq_true, List.isEmpty_iff] at last
    obtain ⟨listening, none⟩ := last
    have nonempty : state.bandwidthListeners ≠ [] := by
      intro empty
      rw [empty] at listening
      cases listening
    obtain ⟨job, looper, loops⟩ := coupled.busy nonempty
    rw [looper]
    exact ⟨coupled.unfailed, fun _ => ⟨rfl, by simp [loops]⟩, fun other => absurd none other⟩
  next other =>
    cases present : LinkedMap.get cb state.bandwidthListeners with
    | none =>
        have same : LinkedMap.remove cb state.bandwidthListeners = state.bandwidthListeners :=
          LinkedMap.remove_of_not_mem (LinkedMap.get_eq_none_iff.mp present)
        exact coupled.congr same rfl rfl rfl
    | some timeout =>
        rw [present, Option.isSome_some, Bool.true_and, List.isEmpty_iff] at other
        refine ⟨coupled.unfailed, fun none => absurd none other, fun _ => coupled.busy ?_⟩
        intro empty
        rw [empty] at present
        cases present

theorem Coupled.unregister (coupled : state.Coupled) (cb : κ) :
    (state.unregisterCallback cb).Coupled :=
  (coupled.stop cb).congr rfl rfl rfl rfl

/-- A loop that runs finds listeners, so it never returns by itself. -/
theorem Coupled.loop (coupled : state.Coupled) {job : Nat} (running : job ∈ state.loops)
    (data : ServiceView) : (state.loop job data).Coupled := by
  have nonempty : state.bandwidthListeners ≠ [] := by
    intro empty
    rw [(coupled.idle empty).2] at running
    cases running
  have told := coupled.foldl_send (state.callbacks.filter (fun cb => decide (cb ∈ LinkedMap.keys
    state.bandwidthListeners))) ((BandwidthLoop.round data.connected
      (!state.bandwidthListeners.isEmpty) data.proxies).getD [])
  have stays : pause state.bandwidthListeners ≠ .returns := by
    rw [pause]
    cases least : (state.bandwidthListeners.map Prod.snd).min? with
    | none => exact absurd (List.map_eq_nil_iff.mp (List.min?_eq_none_iff.mp least)) nonempty
    | some timeout =>
        dsimp only
        split <;> exact Pause.noConfusion
  rw [Binder.loop]
  split
  next returns => exact absurd returns stays
  next => exact told.congr rfl rfl rfl rfl
  next => exact told

/-- Every turn but a posted start of a loop that spins keeps the looper and the listeners
coupled. -/
theorem Coupled.turn (coupled : state.Coupled) (awake : state.spinning = false)
    {event : BinderEvent κ} (heeds : state.Heeds event) : (state.turn event).Coupled := by
  cases event with
  | register cb =>
      rw [Binder.turn]
      split
      · exact coupled
      · exact coupled.congr rfl rfl rfl rfl
  | start posted cb timeout data =>
      by_cases empty : state.bandwidthListeners = []
      · have fine : posted = false ∨ 0 < timeout := by
          cases posted with
          | false => exact Or.inl rfl
          | true => exact Or.inr (heeds cb timeout data rfl awake empty)
        have launched := coupled.launch empty cb fine
        rw [Binder.turn, coupled.start_first empty]
        split
        · exact launched
        · exact launched.send cb data.greeting
      · have others : ¬ (state.bandwidthListeners.isEmpty &&
            (LinkedMap.get cb state.bandwidthListeners).isNone) = true := by
          simp [empty]
        rw [Binder.turn, startListeningForBandwidth, if_neg others]
        exact (coupled.join empty cb timeout).send cb data.greeting
  | stop cb => exact coupled.stop cb
  | unregister cb => exact coupled.unregister cb
  | died cb => exact coupled.unregister cb
  | wake job data =>
      rw [Binder.turn]
      split
      next running => exact coupled.loop running data
      next => exact coupled

/-! ## Runs -/

/-- A step keeps the coupling exactly if it heeds the timeout, and if it does not, the looper
is missing. -/
theorem Coupled.step_iff (coupled : state.Coupled) (event : BinderEvent κ) :
    ((state.step event).Coupled ↔ state.Heeds event) ∧
      ((state.step event).Sound → state.Heeds event) := by
  have broken : ¬ state.Heeds event → ¬ (state.step event).Sound := by
    intro careless sound
    rw [Heeds] at careless
    push Not at careless
    obtain ⟨cb, timeout, data, rfl, awake, empty, idle⟩ := careless
    have active : ¬ (state.spinning || state.failure.isSome) = true := by
      simp [awake, coupled.unfailed]
    rw [Binder.step, if_neg active] at sound
    obtain ⟨listeners, looper⟩ := coupled.launch_spins empty cb idle data
    have nonempty : (state.turn (.start true cb timeout data)).bandwidthListeners ≠ [] := by
      rw [Binder.turn, listeners]
      exact List.cons_ne_nil _ _
    have present := sound.looper.mpr nonempty
    rw [Binder.turn, looper] at present
    cases present
  have heedful : (state.step event).Sound → state.Heeds event :=
    fun sound => not_not.mp (fun careless => broken careless sound)
  refine ⟨⟨fun stepped => heedful stepped.sound, ?_⟩, heedful⟩
  intro heeds
  rw [Binder.step]
  split
  · exact coupled
  next active =>
    rw [Bool.or_eq_true, not_or, Bool.not_eq_true] at active
    exact coupled.turn active.1 heeds

omit [DecidableEq κ] in
theorem coupled_start : ({} : Binder κ).Coupled :=
  ⟨rfl, fun _ => ⟨rfl, rfl⟩, fun nonempty => absurd rfl nonempty⟩

/-- **The looper follows the listeners.** For every order of calls, deaths and delays, the
looper is there exactly while there are listeners, its checks hold and at most one loop runs,
if and only if no posted call that finds no listener asks for a timeout that is not positive. -/
theorem sound_iff_heeds (events : List (BinderEvent κ)) :
    (∀ first second, events = first ++ second → (run first).Sound) ↔
      Machine.Along step Heeds {} events := by
  have coupled_iff := Machine.throughout_iff_along
    (fun (state : Binder κ) event (coupled : state.Coupled) => (coupled.step_iff event).1)
    coupled_start events
  rw [← coupled_iff]
  constructor
  · intro sound first
    induction first using List.reverseRecOn with
    | nil => exact fun _ _ => coupled_start
    | append_singleton first event ih =>
        intro second split
        have before := ih (event :: second) (by rw [split, List.append_assoc]; rfl)
        have after := sound (first ++ [event]) second split
        rw [run, Machine.run_concat] at after
        rw [Machine.run_concat]
        exact (before.step_iff event).1.mpr ((before.step_iff event).2 after)
  · intro coupled first second split
    exact (coupled first second split).sound

/-- A client that is not the service itself asks for a timeout of zero: the loop runs in place
and does not suspend, so the looper is never assigned. -/
theorem not_sound_zero_timeout :
    let events : List (BinderEvent Nat) := [.start true 7 0 {}]
    (run events).bandwidthListeners = [(7, 0)] ∧ (run events).looper = none ∧
      (run events).loops = [0] ∧ (run events).spinning = true ∧ ¬ (run events).Sound := by
  refine ⟨rfl, rfl, rfl, rfl, ?_⟩
  intro sound
  have present := sound.looper.mpr (List.cons_ne_nil _ _)
  cases present

end Binder

end AlienConnection.Bg
