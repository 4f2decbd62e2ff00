import AlienConnection.Bg.Lifecycle

/-!
# VPN services and the default-network actor

Any number of VPN services share one network actor. What a service hands to the
actor is received at any later time, in any order, at most once or never; in
between the platform reports networks and others ask for the current one. Once
the actor has ended, nothing is received any more.
-/

namespace AlienConnection.Bg

open Database Library Net

def ListenerKey.owner : ListenerKey → Nat
  | .vpnService self => self
  | .coroutine self _ => self

/-! ## Services sharing the actor -/

structure VpnSystem where
  services : List Service
  actor : NetworkActor ListenerKey := {}
  closed : Bool := false
  received : List (Nat × NetworkRequest) := []
  deriving DecidableEq, Repr

namespace VpnSystem

inductive Event where
  | turn (service : Nat) (event : Service.Event)
  | receive (service : Nat) (request : NetworkRequest) (listener : Nat)
  | get (request : Nat)
  | put (network : Network)
  | update (network : Network)
  | lost (network : Network)
  deriving DecidableEq, Repr

def deliver (system : VpnSystem) (message : NetworkMessage ListenerKey) : VpnSystem :=
  if system.closed then system
  else
    match system.actor.receive message with
    | none => { system with closed := true }
    | some next => { system with actor := next }

def requestMessage (listener : Nat) : NetworkRequest → NetworkMessage ListenerKey
  | .start key => .start key listener
  | .stop key => .stop key

def pending (system : VpnSystem) (service : Service) (index : Nat)
    (request : NetworkRequest) : Nat :=
  service.session.sent.count request - system.received.count (index, request)

def step (decodedSize : String → Option Nat) (system : VpnSystem) : Event → VpnSystem
  | .turn index event =>
      match system.services[index]? with
      | none => system
      | some service =>
          { system with
            services := system.services.set index (service.step decodedSize event) }
  | .receive index request listener =>
      match system.services[index]? with
      | none => system
      | some service =>
          if system.closed = true ∨ system.pending service index request = 0 then system
          else
            { system.deliver (requestMessage listener request) with
              received := system.received ++ [(index, request)] }
  | .get request => system.deliver (.get request)
  | .put network => system.deliver (.put network)
  | .update network => system.deliver (.update network)
  | .lost network => system.deliver (.lost network)

def initial (count : Nat) : VpnSystem :=
  { services := (List.range count).map (fun self => { self := self, kind := .vpn }) }

def run (decodedSize : String → Option Nat) (count : Nat) (events : List Event) : VpnSystem :=
  Machine.run (step decodedSize) (initial count) events

/-! ## Balance -/

/-- Service `index` has stopped, with its clean-up complete and its stop messages
received. -/
def Completed (index : Nat) (system : VpnSystem) : Prop :=
  ∃ service, system.services[index]? = some service ∧ service.state = .stopped ∧
    ∀ key, .stop key ∈ service.session.sent → (index, .stop key) ∈ system.received

/-- Service `index` has no entry among the listeners, and the callback is
unregistered when no other service listens. -/
structure Deregistered (index : Nat) (system : VpnSystem) : Prop where
  entry : ∀ key ∈ LinkedMap.keys system.actor.listeners, key.owner ≠ index
  callback : (∀ key ∈ LinkedMap.keys system.actor.listeners, key.owner = index) →
    system.actor.registered = false

/-- What a completed stop should leave: one key was passed to both calls, and the
service is deregistered. -/
structure Balanced (index : Nat) (system : VpnSystem) : Prop extends
    Deregistered index system where
  keys : ∀ service, system.services[index]? = some service → ∀ started stopped,
    NetworkRequest.start started ∈ service.session.sent →
    NetworkRequest.stop stopped ∈ service.session.sent → stopped = started

/-! ## The invariant of the system -/

structure Member (index : Nat) (service : Service) : Prop where
  self : service.self = index
  kind : service.kind = .vpn
  sound : service.Sound
  sent : ∀ request ∈ service.session.sent, OwnRequest index request

/-- Messages carry the keys of their sender, only what has been sent is received,
and the listeners are the services whose start message has been received. -/
structure Wired (system : VpnSystem) : Prop where
  services : ∀ (index : Nat) service, system.services[index]? = some service →
    Member index service
  received : ∀ index request, (index, request) ∈ system.received →
    ∃ service, system.services[index]? = some service ∧ request ∈ service.session.sent
  listeners : ∀ key, key ∈ LinkedMap.keys system.actor.listeners ↔
    ∃ index, key = .vpnService index ∧ (index, .start key) ∈ system.received
  watching : system.actor.Watching

theorem Member.step {index : Nat} {service : Service} (member : Member index service)
    (decodedSize : String → Option Nat) (event : Service.Event) :
    Member index (service.step decodedSize event) := by
  have turns := Service.turns_step decodedSize service event
  refine ⟨turns.self.trans member.self, turns.kind.trans member.kind,
    member.sound.step decodedSize event, ?_⟩
  intro request sent
  rcases turns.sent.own request sent with before | own
  · exact member.sent request before
  · rw [member.self] at own
    exact own

theorem wired_initial (count : Nat) : Wired (initial count) where
  services := by
    intro index service found
    rw [initial, List.getElem?_map] at found
    obtain ⟨self, listed, same⟩ := Option.map_eq_some_iff.mp found
    obtain ⟨inside, value⟩ := List.getElem?_eq_some_iff.mp listed
    rw [List.getElem_range] at value
    subst value
    rw [← same]
    exact ⟨rfl, rfl, Service.sound_new _ _, fun _ member => nomatch member⟩
  received := fun _ _ member => nomatch member
  listeners := by
    intro key
    constructor
    · intro member
      cases member
    · rintro ⟨_, _, member⟩
      cases member
  watching := rfl

/-- A message that is neither a start nor a stop. -/
theorem Wired.deliver {system : VpnSystem} (wired : Wired system)
    (message : NetworkMessage ListenerKey)
    (notStart : ∀ key listener, message ≠ .start key listener)
    (notStop : ∀ key, message ≠ .stop key) : Wired (system.deliver message) := by
  unfold VpnSystem.deliver
  split
  · exact wired
  · split
    · exact ⟨wired.services, wired.received, wired.listeners, wired.watching⟩
    next next handled =>
      refine ⟨wired.services, wired.received, ?_, wired.watching.receive handled⟩
      intro key
      rw [NetworkActor.listeners_receive handled notStart notStop]
      exact wired.listeners key

/-- A start message of a service is received: its own key is entered. -/
theorem Wired.receiveStart {system : VpnSystem} (wired : Wired system) (running : ¬ system.closed)
    {index : Nat} {service : Service} (found : system.services[index]? = some service)
    (sent : .start (.vpnService index) ∈ service.session.sent) (listener : Nat) :
    Wired { system.deliver (.start (.vpnService index) listener) with
      received := system.received ++ [(index, .start (.vpnService index))] } := by
  obtain ⟨next, handled, keys⟩ := system.actor.keys_start (.vpnService index) listener
  rw [VpnSystem.deliver, if_neg running, handled]
  refine ⟨wired.services, ?_, ?_, wired.watching.receive handled⟩
  · intro other request member
    rcases List.mem_append.mp member with before | here
    · exact wired.received other request before
    · cases List.mem_singleton.mp here
      exact ⟨service, found, sent⟩
  · intro key
    refine (keys key).trans ?_
    rw [wired.listeners]
    constructor
    · rintro (same | ⟨other, same, before⟩)
      · exact ⟨index, same, by rw [same]; exact List.mem_append_right _ List.mem_cons_self⟩
      · exact ⟨other, same, List.mem_append_left _ before⟩
    · rintro ⟨other, same, member⟩
      rcases List.mem_append.mp member with before | here
      · exact Or.inr ⟨other, same, before⟩
      · cases List.mem_singleton.mp here
        exact Or.inl rfl

/-- A stop message carries the key of a coroutine, which is no listener. -/
theorem Wired.receiveStop {system : VpnSystem} (wired : Wired system) (running : ¬ system.closed)
    {index stop : Nat} {service : Service} (found : system.services[index]? = some service)
    (sent : .stop (stopListeningKey index stop) ∈ service.session.sent) :
    Wired { system.deliver (.stop (stopListeningKey index stop)) with
      received := system.received ++ [(index, .stop (stopListeningKey index stop))] } := by
  obtain ⟨next, handled, keys⟩ := system.actor.keys_stop (stopListeningKey index stop)
  rw [VpnSystem.deliver, if_neg running, handled]
  refine ⟨wired.services, ?_, ?_, wired.watching.receive handled⟩
  · intro other request member
    rcases List.mem_append.mp member with before | here
    · exact wired.received other request before
    · cases List.mem_singleton.mp here
      exact ⟨service, found, sent⟩
  · intro key
    refine (keys key).trans ?_
    rw [wired.listeners]
    constructor
    · rintro ⟨⟨other, same, before⟩, _⟩
      exact ⟨other, same, List.mem_append_left _ before⟩
    · rintro ⟨other, same, member⟩
      rcases List.mem_append.mp member with before | here
      · refine ⟨⟨other, same, before⟩, ?_⟩
        rw [same]
        exact ListenerKey.noConfusion
      · cases List.mem_singleton.mp here

theorem Wired.step {system : VpnSystem} (wired : Wired system)
    (decodedSize : String → Option Nat) (event : Event) :
    Wired (system.step decodedSize event) := by
  cases event with
  | turn index event =>
      rw [VpnSystem.step]
      split
      next => exact wired
      next service found =>
        refine ⟨?_, ?_, wired.listeners, wired.watching⟩
        · intro place other stored
          rcases Tasks.getElem?_set_cases stored with ⟨same, replaced⟩ | ⟨_, untouched⟩
          · rw [same, replaced]
            exact (wired.services index service found).step decodedSize event
          · exact wired.services place other untouched
        · intro place request member
          obtain ⟨sender, there, sent⟩ := wired.received place request member
          by_cases same : index = place
          · subst same
            rw [found] at there
            cases there
            exact ⟨_, List.getElem?_set_self (List.getElem?_eq_some_iff.mp found).1,
              (Service.turns_step decodedSize service event).sent.kept sent⟩
          · exact ⟨sender, by rw [List.getElem?_set_ne same]; exact there, sent⟩
  | receive index request listener =>
      rw [VpnSystem.step]
      split
      next => exact wired
      next service found =>
        split
        next => exact wired
        next waiting =>
          obtain ⟨running, unreceived⟩ := not_or.mp waiting
          have sent : request ∈ service.session.sent := by
            refine List.count_pos_iff.mp ?_
            rw [pending] at unreceived
            omega
          rcases (wired.services index service found).sent request sent with start | ⟨stop, key⟩
          · subst start
            exact wired.receiveStart running found sent listener
          · subst key
            exact wired.receiveStop running found sent
  | get request => exact wired.deliver (.get request) (fun _ _ => nofun) (fun _ => nofun)
  | put network => exact wired.deliver (.put network) (fun _ _ => nofun) (fun _ => nofun)
  | update network => exact wired.deliver (.update network) (fun _ _ => nofun) (fun _ => nofun)
  | lost network => exact wired.deliver (.lost network) (fun _ _ => nofun) (fun _ => nofun)

theorem wired_run (decodedSize : String → Option Nat) (count : Nat) (events : List Event) :
    Wired (run decodedSize count events) :=
  Machine.run_invariant (fun _ event wired => wired.step decodedSize event)
    (wired_initial count) events

/-! ## After a completed stop -/

/-- A start and a stop message of one service never carry the same key. -/
theorem Member.keys_differ {index : Nat} {service : Service} (member : Member index service)
    {started stopped : ListenerKey} (start : .start started ∈ service.session.sent)
    (stop : .stop stopped ∈ service.session.sent) : stopped ≠ started := by
  rcases member.sent _ start with own | ⟨_, impossible⟩
  · rcases member.sent _ stop with impossible | ⟨task, key⟩
    · cases impossible
    · cases own
      cases key
      exact ListenerKey.noConfusion
  · cases impossible

theorem Wired.deregistered_iff {system : VpnSystem} (wired : Wired system) (index : Nat) :
    Deregistered index system ↔ ∀ key, (index, .start key) ∉ system.received := by
  constructor
  · intro deregistered key received
    obtain ⟨service, found, sent⟩ := wired.received _ _ received
    rcases (wired.services index service found).sent _ sent with own | ⟨_, impossible⟩
    · cases own
      exact deregistered.entry _ ((wired.listeners _).mpr ⟨index, rfl, received⟩) rfl
    · cases impossible
  · intro unreceived
    have entry : ∀ key ∈ LinkedMap.keys system.actor.listeners, key.owner ≠ index := by
      intro key member owned
      obtain ⟨other, same, received⟩ := (wired.listeners key).mp member
      rw [same] at owned
      rw [show other = index from owned] at received
      exact unreceived _ received
    refine ⟨entry, ?_⟩
    intro alone
    have empty : system.actor.listeners = [] := by
      rw [List.eq_nil_iff_forall_not_mem]
      intro item member
      have listed := List.mem_map_of_mem (f := Prod.fst) member
      exact entry item.1 listed (alone item.1 listed)
    rw [wired.watching, empty]
    rfl

/-- After a completed stop a service is balanced exactly when it has never sent a
start message: the clean-up has then passed a coroutine's key to `stop`, which is
never the key of the start. Its entry is gone and the callback unregistered exactly
when no start message of it has been received. -/
theorem balanced_iff_no_start (decodedSize : String → Option Nat) (count index : Nat)
    (events : List Event) (completed : Completed index (run decodedSize count events)) :
    (Balanced index (run decodedSize count events) ↔
      ∀ service, (run decodedSize count events).services[index]? = some service →
        ∀ key, .start key ∉ service.session.sent) ∧
    (Deregistered index (run decodedSize count events) ↔
      ∀ key, (index, .start key) ∉ (run decodedSize count events).received) := by
  have wired := wired_run decodedSize count events
  obtain ⟨service, found, stopped, _⟩ := completed
  have member := wired.services index service found
  refine ⟨⟨?_, ?_⟩, wired.deregistered_iff index⟩
  · intro balanced other there started sent
    rw [found] at there
    cases there
    obtain ⟨key, stop⟩ := (member.sound.released stopped).stopSent member.kind ⟨started, sent⟩
    exact member.keys_differ sent stop (balanced.keys service found started key sent stop)
  · intro unsent
    refine ⟨(wired.deregistered_iff index).mpr ?_, ?_⟩
    · intro key received
      obtain ⟨sender, there, sent⟩ := wired.received _ _ received
      exact unsent sender there key sent
    · intro other there started _ sent _
      exact absurd sent (unsent other there started)

def cancelledSession : List Event :=
  [.turn 0 (.onStartCommand Service.plainStart none), .turn 0 (.stopRunner none none),
    .turn 0 (.resumeJob 0 [] none), .turn 0 (.resumeStop 0 none),
    .receive 0 (.stop (.coroutine 0 0)) 0, .turn 0 (.endChild 0 .network true),
    .turn 0 (.resumeStop 0 none)]

theorem balanced_iff_no_start_cancelled :
    Completed 0 (run (fun _ => none) 1 cancelledSession) ∧
      Balanced 0 (run (fun _ => none) 1 cancelledSession) := by
  have sent : (run (fun _ => none) 1 cancelledSession).services.map (·.session.sent) =
      [[.stop (.coroutine 0 0)]] := by decide
  have only : ∀ service, (run (fun _ => none) 1 cancelledSession).services[0]? = some service →
      service.session.sent = [.stop (.coroutine 0 0)] := by
    intro service found
    have place := congrArg (fun listed => listed[0]?) sent
    rw [List.getElem?_map, found] at place
    exact Option.some.inj place
  have completed : Completed 0 (run (fun _ => none) 1 cancelledSession) := by
    refine ⟨_, rfl, by decide, ?_⟩
    intro key member
    rw [only _ rfl] at member
    cases List.mem_singleton.mp member
    decide
  refine ⟨completed, (balanced_iff_no_start (fun _ => none) 1 0 _ completed).1.mpr ?_⟩
  intro service found key member
  rw [only service found] at member
  cases List.mem_singleton.mp member

/-- A VPN session that is stopped while it waits for the network. The actor has
received both of its messages and the clean-up is complete. -/
def stoppedSession : List Event :=
  [.turn 0 (.onStartCommand Service.plainStart none), .turn 0 (.resumeJob 0 [.ok, .suspend] none),
    .receive 0 (.start (.vpnService 0)) 0, .turn 0 (.stopRunner none none),
    .turn 0 (.resumeJob 0 [] none), .turn 0 (.resumeStop 0 none),
    .receive 0 (.stop (.coroutine 0 0)) 0, .turn 0 (.endChild 0 .network true),
    .turn 0 (.resumeStop 0 none)]

theorem not_balanced_stoppedSession :
    ((run (fun _ => none) 1 stoppedSession).services.map Service.state = [.stopped] ∧
      (run (fun _ => none) 1 stoppedSession).services.map (·.session.sent) =
        [[.start (.vpnService 0), .stop (.coroutine 0 0)]] ∧
      (run (fun _ => none) 1 stoppedSession).received =
        [(0, .start (.vpnService 0)), (0, .stop (.coroutine 0 0))]) ∧
    ¬ Balanced 0 (run (fun _ => none) 1 stoppedSession) := by
  refine ⟨by decide, ?_⟩
  intro balanced
  exact balanced.entry (.vpnService 0) (by decide) rfl

end VpnSystem

end AlienConnection.Bg
