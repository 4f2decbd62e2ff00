import AlienConnection.Bg.ProxyInstance
import AlienConnection.Net.DefaultNetworkListener

/-!
# What a session acquires and releases

The fields of the service's data and of the VPN service that one session fills
in, the calls by which the connecting job fills them in, and the calls by which
the clean-up releases them. References to objects that no modelled function
looks into are kept as whether they are non-null.

The connecting job is a straight-line program. The environment decides for
every call whether it returns, suspends (at a suspension point only) or throws.
-/

namespace AlienConnection.Bg

open Database

inductive ServiceKind where
  | proxy
  | transproxy
  | vpn
  deriving DecidableEq, Repr

inductive Executable where
  | redsocks
  | ssLocal
  | tun2socks
  deriving DecidableEq, Repr

inductive Slot where
  | main
  | udp
  deriving DecidableEq, Repr

/-- An object used as a listener key: a VPN service, or the coroutine that one
of its stop coroutines launches for a call. -/
inductive ListenerKey where
  | vpnService (self : Nat)
  | coroutine (self : Nat) (stop : Nat)
  deriving DecidableEq, Repr

inductive NetworkRequest where
  | start (key : ListenerKey)
  | stop (key : ListenerKey)
  deriving DecidableEq, Repr

structure Session where
  processes : Option (List Executable) := none
  proxy : Option ProxyInstance := none
  udpFallback : Option ProxyInstance := none
  localDns : Bool := false
  notification : Option String := none
  closeReceiverRegistered : Bool := false
  conn : Bool := false
  worker : Bool := false
  active : Bool := false
  metered : Bool := false
  sent : List NetworkRequest := []
  deriving DecidableEq, Repr

/-- Nothing of a session is left: for every service its own data, and for the VPN
service the fields it adds. -/
structure Session.Released (kind : ServiceKind) (session : Session) : Prop where
  processes : session.processes = none
  localDns : session.localDns = false
  proxy : session.proxy = none
  udpFallback : session.udpFallback = none
  notification : session.notification = none
  closeReceiverRegistered : session.closeReceiverRegistered = false
  conn : kind = .vpn → session.conn = false
  worker : kind = .vpn → session.worker = false
  active : kind = .vpn → session.active = false

/-! ## The connecting job -/

inductive Exc where
  | cancellation
  | io (message : String)
  | expected (message : String)
  | other (message : String)
  deriving DecidableEq, Repr

def Exc.readableMessage : Exc → String
  | .cancellation => "kotlinx.coroutines.JobCancellationException"
  | .io message => message
  | .expected message => message
  | .other message => message

def nullPointer : Exc := .other "java.lang.NullPointerException"

inductive Instr where
  | killAll
  | preInit
  | flattenCustomRules
  | newPool
  | startWorker
  | writeRedsocksConf
  | startRedsocks
  | newTrafficMonitor (slot : Slot)
  | setConfigFile (slot : Slot)
  | writeConfig (slot : Slot)
  | startSsLocal (slot : Slot)
  | checkFallbackPlugin
  | startLocalDns
  | activate
  | establish
  | startTun2socks
  | delay (tries : Nat)
  | sendFd (tries : Nat)
  | scheduleUpdate (slot : Slot)
  deriving DecidableEq, Repr

def startInstance (slot : Slot) : List Instr :=
  [.newTrafficMonitor slot, .setConfigFile slot, .writeConfig slot, .startSsLocal slot]

def startProcesses : List Instr :=
  startInstance .main ++ [.checkFallbackPlugin] ++ startInstance .udp ++ [.startLocalDns]

/-- `startProcesses` of each service, with `startVpn` and `sendFd` inlined. -/
def ServiceKind.startProcesses : ServiceKind → List Instr
  | .proxy => Bg.startProcesses
  | .transproxy => [.writeRedsocksConf, .startRedsocks] ++ Bg.startProcesses
  | .vpn => [.startWorker] ++ Bg.startProcesses ++
      [.activate, .establish, .startTun2socks, .delay 0, .sendFd 0]

/-- The body of the connecting job up to `changeState(State.Connected)`. -/
def ServiceKind.program (kind : ServiceKind) (route : String) : List Instr :=
  [.killAll] ++ (if kind = .vpn then [.preInit] else []) ++
    (if route = routeCustomRules then [.flattenCustomRules] else []) ++ [.newPool] ++
    kind.startProcesses ++ [.scheduleUpdate .main, .scheduleUpdate .udp]

namespace Session

def proxyAt (session : Session) : Slot → Option ProxyInstance
  | .main => session.proxy
  | .udp => session.udpFallback

def setProxyAt (session : Session) (slot : Slot) (instance' : ProxyInstance) : Session :=
  match slot with
  | .main => { session with proxy := some instance' }
  | .udp => { session with udpFallback := some instance' }

/-- Change the instance of a slot. `data.proxy!!` throws when there is none;
`udpFallback?.` skips the call. -/
def onProxy (session : Session) (slot : Slot) (change : ProxyInstance → ProxyInstance) :
    Except Exc Session :=
  match session.proxyAt slot, slot with
  | some found, _ => .ok (session.setProxyAt slot (change found))
  | none, .main => .error nullPointer
  | none, .udp => .ok session

def startProcess (session : Session) (executable : Executable) : Except Exc Session :=
  match session.processes with
  | none => .error nullPointer
  | some running => .ok { session with processes := some (running ++ [executable]) }

end Session

def configFileName : Slot → String
  | .main => "shadowsocks.conf"
  | .udp => "shadowsocks-udp.conf"

def Instr.perform (session : Session) : Instr → Except Exc Session
  | .killAll => .ok session
  | .preInit => .ok session
  | .flattenCustomRules => .ok session
  | .newPool => .ok { session with processes := some [] }
  | .startWorker => .ok { session with worker := true }
  | .writeRedsocksConf => .ok session
  | .startRedsocks => session.startProcess .redsocks
  | .newTrafficMonitor slot =>
      session.onProxy slot (fun found => { found with trafficMonitor := some {} })
  | .setConfigFile slot =>
      session.onProxy slot (fun found => { found with configFile := some (configFileName slot) })
  | .writeConfig slot => session.onProxy slot id
  | .startSsLocal slot =>
      match session.proxyAt slot, slot with
      | none, .udp => .ok session
      | none, .main => .error nullPointer
      | some _, _ => session.startProcess .ssLocal
  | .checkFallbackPlugin => .ok session
  | .startLocalDns => .ok { session with localDns := true }
  | .activate =>
      match session.proxy with
      | none => .error nullPointer
      | some main => .ok { session with metered := main.profile.metered, active := true }
  | .establish => .ok { session with conn := true }
  | .startTun2socks => session.startProcess .tun2socks
  | .delay _ => .ok session
  | .sendFd _ => .ok session
  | .scheduleUpdate slot => session.onProxy slot id

/-- What a call does at once, whether or not it then suspends: `preInit` offers
the service itself as a listener key to the network actor. -/
def Instr.begin (self : Nat) (session : Session) : Instr → Session
  | .preInit => { session with sent := session.sent ++ [.start (.vpnService self)] }
  | _ => session

def Instr.suspends : Instr → Bool
  | .preInit => true
  | .flattenCustomRules => true
  | _ => false

/-- How the job sees an exception of a call: flattening the custom rules wraps
an `IOException` as an expected one. -/
def Instr.wrap : Instr → Exc → Exc
  | .flattenCustomRules, .io message => .expected message
  | _, exc => exc

inductive Outcome where
  | ok
  | suspend
  | throws (exc : Exc)
  deriving DecidableEq, Repr

inductive Ending where
  | finished
  | suspended (awaited : Instr) (rest : List Instr)
  | raised (exc : Exc)
  deriving DecidableEq, Repr

/-- Where a thrown exception leads: `sendFd` tries again after a longer delay
until its tries exceed 5, every other call ends the job's body. -/
def Instr.throwing (rest : List Instr) : Instr → Exc → Ending
  | .sendFd tries, .io message =>
      if tries > 5 then .raised (.io message)
      else .suspended (.delay (tries + 1)) (.sendFd (tries + 1) :: rest)
  | call, exc => .raised (call.wrap exc)

/-- Run the job from a call on, until it suspends, throws or ends. A delay always
suspends. Calls without a given outcome return. -/
def execute (self : Nat) : List Instr → List Outcome → Session → Session × Ending
  | [], _, session => (session, .finished)
  | .delay tries :: rest, _, session => (session, .suspended (.delay tries) rest)
  | call :: rest, outcomes, session =>
      let begun := call.begin self session
      match outcomes.headD .ok, call.suspends with
      | .throws exc, _ => (begun, call.throwing rest exc)
      | .suspend, true => (begun, .suspended call rest)
      | _, _ =>
          match call.perform begun with
          | .error exc => (begun, .raised exc)
          | .ok performed => execute self rest outcomes.tail performed

/-- Resume a suspended job. The awaited call may have failed; a cancelled job
throws at its suspension point and does not go on. -/
def resume (self : Nat) (cancelled : Bool) (awaited : Instr) (rest : List Instr)
    (outcomes : List Outcome) (session : Session) : Session × Ending :=
  match outcomes.headD .ok with
  | .throws exc => (session, .raised (awaited.wrap exc))
  | _ =>
      if cancelled then (session, .raised .cancellation)
      else
        match awaited.perform session with
        | .error exc => (session, .raised exc)
        | .ok performed => execute self rest outcomes.tail performed

/-- A cancelled job leaves the session alone and throws. -/
theorem resume_cancelled (self : Nat) (awaited : Instr) (rest : List Instr)
    (outcomes : List Outcome) (session : Session) :
    ∃ exc, resume self true awaited rest outcomes session = (session, .raised exc) := by
  unfold resume
  split
  · exact ⟨_, rfl⟩
  · exact ⟨.cancellation, rfl⟩

/-! ## The clean-up -/

inductive Child where
  | processPool
  | localDns
  | network
  | worker
  | trafficMonitor (slot : Slot)
  deriving DecidableEq, Repr

inductive CleanOp where
  | closePool
  | shutdownLocalDns
  | deactivate
  | stopListening
  | shutdownWorker
  | closeConn
  | unregisterReceiver
  | destroyNotification
  | shutdown (slot : Slot)
  | forgetProxies
  deriving DecidableEq, Repr

def ServiceKind.killProcesses : ServiceKind → List CleanOp
  | .proxy => [.closePool, .shutdownLocalDns]
  | .transproxy => [.closePool, .shutdownLocalDns]
  | .vpn => [.closePool, .shutdownLocalDns, .deactivate, .stopListening, .shutdownWorker, .closeConn]

def ServiceKind.cleanUp (kind : ServiceKind) : List CleanOp :=
  kind.killProcesses ++ [.unregisterReceiver, .destroyNotification, .shutdown .main,
    .shutdown .udp, .forgetProxies]

/-- The key in `scope.launch { DefaultNetworkListener.stop(this) }`: inside the
lambda `this` is the launched coroutine, not the service. -/
def stopListeningKey (self stop : Nat) : ListenerKey := .coroutine self stop

def CleanOp.perform (self stop : Nat) (session : Session) : CleanOp → Session × List Child
  | .closePool =>
      ({ session with processes := none },
        if session.processes.isSome then [.processPool] else [])
  | .shutdownLocalDns =>
      ({ session with localDns := false }, if session.localDns then [.localDns] else [])
  | .deactivate => ({ session with active := false }, [])
  | .stopListening =>
      ({ session with sent := session.sent ++ [.stop (stopListeningKey self stop)] }, [.network])
  | .shutdownWorker => ({ session with worker := false }, if session.worker then [.worker] else [])
  | .closeConn => ({ session with conn := false }, [])
  | .unregisterReceiver => ({ session with closeReceiverRegistered := false }, [])
  | .destroyNotification => ({ session with notification := none }, [])
  | .shutdown slot =>
      match session.proxyAt slot with
      | none => (session, [])
      | some found =>
          (session.setProxyAt slot { found with trafficMonitor := none, configFile := none },
            if found.trafficMonitor.isSome then [.trafficMonitor slot] else [])
  | .forgetProxies => ({ session with proxy := none, udpFallback := none }, [])

def release (self stop : Nat) : List CleanOp → Session → Session × List Child
  | [], session => (session, [])
  | op :: rest, session =>
      let done := op.perform self stop session
      let later := release self stop rest done.1
      (later.1, done.2 ++ later.2)

theorem release_append (self stop : Nat) (first second : List CleanOp) (session : Session) :
    (release self stop (first ++ second) session).1 =
      (release self stop second (release self stop first session).1).1 := by
  induction first generalizing session with
  | nil => rfl
  | cons op rest ih => exact ih _

/-- The last five calls of the clean-up forget the receiver, the notification and
both proxies and touch nothing else. -/
theorem release_shared (self stop : Nat) (session : Session) :
    (release self stop [.unregisterReceiver, .destroyNotification, .shutdown .main,
      .shutdown .udp, .forgetProxies] session).1 =
      { session with
        closeReceiverRegistered := false
        notification := none
        proxy := none
        udpFallback := none } := by
  cases hmain : session.proxy <;> cases hudp : session.udpFallback <;>
    simp [release, CleanOp.perform, Session.proxyAt, Session.setProxyAt, hmain, hudp]

/-- What a complete clean-up leaves: nothing of a session, and for a VPN service
that has sent a start message also a stop message. -/
structure Session.CleanedUp (kind : ServiceKind) (session : Session) : Prop where
  released : session.Released kind
  stopSent : kind = .vpn → (∃ key, .start key ∈ session.sent) → ∃ key, .stop key ∈ session.sent

theorem cleanUp_cleanedUp (self stop : Nat) (kind : ServiceKind) (session : Session) :
    (release self stop kind.cleanUp session).1.CleanedUp kind := by
  rw [ServiceKind.cleanUp, release_append, release_shared]
  refine ⟨?_, ?_⟩
  · cases kind with
    | proxy => constructor <;> first | rfl | (intro impossible; cases impossible)
    | transproxy => constructor <;> first | rfl | (intro impossible; cases impossible)
    | vpn => constructor <;> first | rfl | (intro _; rfl)
  · rintro rfl _
    exact ⟨stopListeningKey self stop, List.mem_append_right _ List.mem_cons_self⟩

end AlienConnection.Bg
