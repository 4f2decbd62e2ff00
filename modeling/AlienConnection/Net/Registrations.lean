import AlienConnection.Net.NetworkJournal
import Mathlib.Data.List.Induction

/-!
# Registrations of the connectivity callback

The platform calls back only while the callback is registered, but a call may still be
on its way to the actor when the last listener is stopped. Every registration has a
number, and a call on its way carries that of the registration in which it was made.
For every network that is passed on, the number of the registration in which it was
reported is recorded together with that of the current one.
-/

namespace AlienConnection.Net

open Library

inductive Client (κ : Type) where
  | start (key : κ) (listener : Nat)
  | get (request : Nat)
  | stop (key : κ)

def Client.message {κ : Type} : Client κ → NetworkMessage κ
  | .start key listener => .start key listener
  | .get request => .get request
  | .stop key => .stop key

inductive Callback where
  | available (network : Network)
  | capabilitiesChanged (network : Network)
  | lost (network : Network)

def Callback.message {κ : Type} : Callback → NetworkMessage κ
  | .available network => .put network
  | .capabilitiesChanged network => .update network
  | .lost network => .lost network

/-- What can happen: a client sends a message, the platform calls back, the actor
receives the oldest call on its way, or that call is dropped. -/
inductive NetworkEvent (κ : Type) where
  | client (client : Client κ)
  | report (callback : Callback)
  | deliver
  | drop

structure Registrations (κ : Type) where
  actor : NetworkActor κ := {}
  inFlight : List (Nat × Callback) := []
  registration : Nat := 0
  source : Option Nat := none
  passed : List (Option Nat × Nat) := []

def NetworkCall.carries : NetworkCall → Bool
  | .notify _ network => network.isSome
  | .complete _ _ => true

namespace Registrations

variable {κ : Type} [DecidableEq κ]

/-- The actor has handled a message; its network, if it has one, comes from `source`. -/
def accept (state : Registrations κ) (next : NetworkActor κ) (source : Option Nat) :
    Registrations κ :=
  let registration :=
    if next.registered && !state.actor.registered then state.registration + 1
    else state.registration
  let source := if next.network.isSome then source else none
  { state with
    actor := next
    registration := registration
    source := source
    passed := state.passed ++
      ((next.calls.drop state.actor.calls.length).filter NetworkCall.carries).map
        (fun _ => (source, registration)) }

def sourceOf (state : Registrations κ) (registration : Nat) : Callback → Option Nat
  | .available _ => some registration
  | .capabilitiesChanged _ => state.source
  | .lost _ => state.source

/-- The result is nothing when the check of `get` fails. -/
def step (state : Registrations κ) : NetworkEvent κ → Option (Registrations κ)
  | .client client =>
      (state.actor.receive client.message).map (fun next => state.accept next state.source)
  | .report callback => some
      (if state.actor.registered then
        { state with inFlight := state.inFlight ++ [(state.registration, callback)] }
      else state)
  | .deliver =>
      match state.inFlight with
      | [] => some state
      | (registration, callback) :: rest =>
          (state.actor.receive callback.message).map (fun next =>
            { state with inFlight := rest }.accept next (state.sourceOf registration callback))
  | .drop => some { state with inFlight := state.inFlight.tail }

def run (events : List (NetworkEvent κ)) : Option (Registrations κ) := events.foldlM step {}

def Cleared (state : Registrations κ) : Prop :=
  state.actor.listeners = [] → state.actor.network = none

/-- Every network passed on was reported in the registration then current. -/
def Current (state : Registrations κ) : Prop :=
  ∀ entry ∈ state.passed, entry.1 = some entry.2

/-- Along the whole run, no registration sees a network of an earlier one. -/
def Separated (events : List (NetworkEvent κ)) : Prop :=
  ∀ first second state, events = first ++ second → run first = some state →
    state.Cleared ∧ state.Current

/-- The actor receives `onAvailable` only while there are listeners, and only in the
registration in which the call was made. -/
def Timely (events : List (NetworkEvent κ)) : Prop :=
  ∀ first second state registration network rest, events = first ++ .deliver :: second →
    run first = some state → state.inFlight = (registration, .available network) :: rest →
    state.actor.listeners ≠ [] ∧ registration = state.registration

structure Sound (state : Registrations κ) : Prop where
  watching : state.actor.Watching
  cleared : state.Cleared
  current : state.Current
  fresh : state.actor.network.isSome → state.source = some state.registration

variable {state next : Registrations κ}

omit [DecidableEq κ] in
/-- With a network there are listeners, so the callback is registered. -/
theorem Sound.registered (sound : state.Sound) (held : state.actor.network.isSome) :
    state.actor.listeners ≠ [] ∧ state.actor.registered = true := by
  have filled : state.actor.listeners ≠ [] := by
    intro empty
    rw [sound.cleared empty] at held
    cases held
  refine ⟨filled, ?_⟩
  rw [sound.watching]
  simpa using filled

omit [DecidableEq κ] in
/-- A step keeps the state sound if, where it leaves a network, there are listeners and
the network comes from the current registration, and where it leaves none, it passes
none on. -/
theorem sound_accept {actor : NetworkActor κ} {source : Option Nat} (watching : actor.Watching)
    (current : state.Current)
    (filled : actor.network.isSome → actor.listeners ≠ [] ∧
      source = some (state.accept actor source).registration)
    (silent : actor.network = none →
      (actor.calls.drop state.actor.calls.length).filter NetworkCall.carries = []) :
    (state.accept actor source).Sound := by
  have origin : actor.network.isSome → (state.accept actor source).source = source :=
    fun held => if_pos held
  refine ⟨watching, ?_, ?_, ?_⟩
  · intro empty
    cases held : actor.network with
    | none => exact held
    | some network => exact absurd empty (filled (by rw [held]; rfl)).1
  · intro entry member
    rcases List.mem_append.mp member with before | here
    · exact current entry before
    · cases held : actor.network with
      | none =>
          rw [silent held] at here
          cases here
      | some network =>
          have some : actor.network.isSome = true := by rw [held]; rfl
          obtain ⟨call, _, rfl⟩ := List.mem_map.mp here
          exact (origin some).trans (filled some).2
  · intro held
    exact (origin held).trans (filled held).2

/-- Where a message leaves no network, no network is passed on. -/
theorem silent_of_handles {actor changed : NetworkActor κ} {message : NetworkMessage κ}
    {fresh : List NetworkCall} (handles : actor.Handles message changed fresh)
    (none : changed.network = none) : fresh.filter NetworkCall.carries = [] := by
  cases handles with
  | enters key listener held => rfl
  | tells key listener network held => cases held.symm.trans none
  | waits request held => rfl
  | answers request network held => cases held.symm.trans none
  | removes key remaining => rfl
  | empties key remaining => rfl
  | puts network => cases none
  | refreshes network held => cases held.symm.trans none
  | loses network held =>
      rw [List.filter_eq_nil_iff]
      intro call member
      obtain ⟨entry, _, rfl⟩ := List.mem_map.mp member
      exact Bool.false_ne_true
  | ignoresStop key empty => rfl
  | ignoresUpdate network => rfl
  | ignoresLost network => rfl

/-- Every message but `put` leaves the network that was there, with listeners and the
registration that it found, or none. -/
theorem Sound.handles (sound : state.Sound) {changed : NetworkActor κ}
    {message : NetworkMessage κ} {fresh : List NetworkCall}
    (handles : state.actor.Handles message changed fresh)
    (notPut : ∀ network, message ≠ .put network) (held : changed.network.isSome) :
    state.actor.network.isSome ∧ changed.listeners ≠ [] := by
  have kept : ∀ {listeners : List (κ × Nat)}, state.actor.network.isSome →
      (state.actor.listeners ≠ [] → listeners ≠ []) →
      state.actor.network.isSome ∧ listeners ≠ [] :=
    fun before grown => ⟨before, grown (sound.registered before).1⟩
  cases handles with
  | enters key listener none =>
      rw [none] at held
      cases held
  | tells key listener network network =>
      refine kept held (fun _ empty => ?_)
      have present := LinkedMap.get_put_self key listener state.actor.listeners
      rw [show LinkedMap.put key listener state.actor.listeners = [] from empty] at present
      cases present
  | waits request none => exact kept held id
  | answers request network network => exact kept held id
  | removes key remaining => exact ⟨held, remaining⟩
  | empties key remaining => cases held
  | puts network => exact absurd rfl (notPut network)
  | refreshes network network => exact kept held id
  | loses network network => cases held
  | ignoresStop key empty => exact kept held id
  | ignoresUpdate network => exact kept held id
  | ignoresLost network => exact kept held id

/-- A message other than `put` keeps the state sound. -/
theorem Sound.accept (sound : state.Sound) {actor : NetworkActor κ}
    {message : NetworkMessage κ} (handled : state.actor.receive message = some actor)
    (notPut : ∀ network, message ≠ .put network) : (state.accept actor state.source).Sound := by
  obtain ⟨changed, fresh, handles, rfl, calls⟩ := NetworkActor.handles_of_receive handled
  have dropped : (changed.calling fresh).calls.drop state.actor.calls.length = fresh := by
    rw [NetworkActor.calling, calls, List.drop_left]
  refine sound_accept (sound.watching.receive handled) sound.current ?_ ?_
  · intro held
    obtain ⟨before, filled⟩ := sound.handles handles notPut held
    refine ⟨filled, ?_⟩
    have registered := (sound.registered before).2
    rw [sound.fresh before, Registrations.accept]
    simp [registered]
  · intro none
    rw [dropped]
    exact silent_of_handles handles none

/-- A `put` keeps the state sound exactly if it is timely. -/
theorem sound_put (sound : state.Sound) (registration : Nat) (network : Network)
    (filled : state.actor.listeners ≠ []) (same : registration = state.registration)
    {actor : NetworkActor κ} (handled : state.actor.receive (.put network) = some actor) :
    (state.accept actor (some registration)).Sound := by
  have watching := sound.watching.receive handled
  cases handled
  refine sound_accept watching sound.current (fun _ => ⟨filled, ?_⟩) (fun none => nomatch none)
  simp [Registrations.accept, same]

theorem Sound.step (sound : state.Sound) {event : NetworkEvent κ}
    (stepped : state.step event = some next)
    (timely : event = .deliver → ∀ registration network rest,
      state.inFlight = (registration, .available network) :: rest →
      state.actor.listeners ≠ [] ∧ registration = state.registration) : next.Sound := by
  cases event with
  | client client =>
      obtain ⟨actor, handled, rfl⟩ := Option.map_eq_some_iff.mp stepped
      apply sound.accept handled
      intro network same
      cases client <;> cases same
  | report callback =>
      cases stepped
      split
      · exact ⟨sound.watching, sound.cleared, sound.current, sound.fresh⟩
      · exact sound
  | deliver =>
      rw [Registrations.step] at stepped
      cases flying : state.inFlight with
      | nil =>
          rw [flying] at stepped
          cases stepped
          exact sound
      | cons oldest rest =>
          obtain ⟨registration, callback⟩ := oldest
          rw [flying] at stepped
          obtain ⟨actor, handled, rfl⟩ := Option.map_eq_some_iff.mp stepped
          have dequeued : Sound { state with inFlight := rest } :=
            ⟨sound.watching, sound.cleared, sound.current, sound.fresh⟩
          cases callback with
          | available network =>
              obtain ⟨filled, same⟩ := timely rfl registration network rest flying
              exact sound_put dequeued registration network filled same handled
          | capabilitiesChanged network =>
              exact dequeued.accept handled (fun _ same => nomatch same)
          | lost network => exact dequeued.accept handled (fun _ same => nomatch same)
  | drop =>
      cases stepped
      exact ⟨sound.watching, sound.cleared, sound.current, sound.fresh⟩

/-! ## Runs -/

theorem run_concat (events : List (NetworkEvent κ)) (event : NetworkEvent κ) :
    run (events ++ [event]) = (run events).bind (fun state => state.step event) := by
  rw [run, List.foldlM_append, ← run]
  cases run events with
  | none => rfl
  | some state => simp

theorem sound_run {events first second : List (NetworkEvent κ)} (timely : Timely events)
    (split : events = first ++ second) (ran : run first = some state) : state.Sound := by
  induction first using List.reverseRecOn generalizing second state with
  | nil =>
      cases ran
      exact ⟨rfl, fun _ => rfl, fun _ none => (nomatch none), fun none => (nomatch none)⟩
  | append_singleton first event ih =>
      rw [run_concat] at ran
      obtain ⟨before, earlier, stepped⟩ := Option.bind_eq_some_iff.mp ran
      rw [List.append_assoc] at split
      refine (ih split earlier).step stepped ?_
      rintro rfl registration network rest flying
      exact timely first second before registration network rest split earlier flying

/-- An `onAvailable` that is received is passed to all listeners, and its network stays. -/
theorem step_deliver_available {registration : Nat} {network : Network}
    {rest : List (Nat × Callback)}
    (flying : state.inFlight = (registration, .available network) :: rest) :
    ∃ next, state.step .deliver = some next ∧ next.actor.network = some network ∧
      next.actor.listeners = state.actor.listeners ∧
      (state.actor.listeners ≠ [] → (some registration, state.registration) ∈ next.passed) := by
  have stepped : state.step .deliver = some ({ state with inFlight := rest }.accept
      { state.actor with
        network := some network
        pendingRequests := []
        calls := state.actor.calls ++
          state.actor.pendingRequests.map (fun request => NetworkCall.complete request network) ++
          state.actor.notifyAll (some network) } (some registration)) := by
    rw [step, flying]
    rfl
  refine ⟨_, stepped, rfl, rfl, ?_⟩
  intro filled
  obtain ⟨entry, others, listeners⟩ := List.exists_cons_of_ne_nil filled
  apply List.mem_append_right
  refine List.mem_map.mpr ⟨.notify entry.2 (some network), ?_, ?_⟩
  · rw [List.append_assoc, List.drop_left, List.mem_filter]
    refine ⟨List.mem_append_right _ (List.mem_map.mpr ⟨entry, ?_, rfl⟩), rfl⟩
    rw [listeners]
    exact List.mem_cons_self
  · simp

/-- No registration sees a network of an earlier one exactly if every `onAvailable` is
received in the registration in which it was made. -/
theorem separated_iff_timely (events : List (NetworkEvent κ)) :
    Separated events ↔ Timely events := by
  constructor
  · intro separated first second state registration network rest split ran flying
    obtain ⟨next, stepped, held, listeners, told⟩ := step_deliver_available flying
    have later : run (first ++ [.deliver]) = some next := by
      rw [run_concat, ran]
      exact stepped
    have whole : events = first ++ [.deliver] ++ second := by
      rw [split, List.append_assoc]
      rfl
    obtain ⟨cleared, current⟩ := separated _ second next whole later
    have filled : state.actor.listeners ≠ [] := by
      intro empty
      have none := cleared (listeners.trans empty)
      rw [held] at none
      cases none
    exact ⟨filled, Option.some.inj (current _ (told filled))⟩
  · intro timely first second state split ran
    have sound := sound_run timely split ran
    exact ⟨sound.cleared, sound.current⟩

/-- A call of `onAvailable` is on its way when the only listener is stopped. Received
then, it leaves a network without listeners, and the listener of the next registration
is told that network. -/
theorem not_separated_in_flight :
    let events : List (NetworkEvent Nat) :=
      [.client (.start 1 10), .report (.available 5), .client (.stop 1), .deliver,
        .client (.start 2 20)]
    (∃ state, run (events.take 4) = some state ∧ state.actor.listeners = [] ∧
        state.actor.network = some 5) ∧
      (∃ state, run events = some state ∧ state.actor.calls = [.notify 20 (some 5)] ∧
        state.passed = [(some 1, 2)]) ∧ ¬ Separated events := by
  refine ⟨⟨_, rfl, rfl, rfl⟩, ⟨_, rfl, rfl, rfl⟩, ?_⟩
  intro separated
  obtain ⟨_, current⟩ := separated _ [] _ (List.append_nil _).symm rfl
  have same := current (some 1, 2) List.mem_cons_self
  cases same

end Registrations

end AlienConnection.Net
