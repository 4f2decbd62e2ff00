import AlienConnection.Bg.Session
import AlienConnection.Library.Machine
import AlienConnection.Library.Tasks

/-!
# The background service as an event machine

Every event is one turn of the main thread: an incoming command, or one
resumption of a coroutine. `stopRunner` launches its coroutine on the immediate
main dispatcher, so the part up to the first suspension belongs to the turn
that calls it. Connecting jobs and stop coroutines are kept in the order of
their launch; nothing in the definitions limits their number.

The log records, in order, the values given to `Data.state`, the job that
publishes `Connected`, and the calls to `startRunner` and `stopSelf`.
-/

namespace AlienConnection.Bg

open Database Library

inductive State where
  | idle
  | connecting
  | connected
  | stopping
  | stopped
  deriving DecidableEq, Repr

def State.canStop : State → Bool
  | .connecting => true
  | .connected => true
  | _ => false

inductive JobPhase where
  | created (program : List Instr)
  | suspended (awaited : Instr) (rest : List Instr)
  | completed
  deriving DecidableEq, Repr

structure Job where
  cancelled : Bool := false
  phase : JobPhase
  deriving DecidableEq, Repr

def Job.live (job : Job) : Bool := decide (job.phase ≠ .completed)

inductive StopPhase where
  | cleaning
  | joining (job : Nat)
  | closing (children : List Child)
  | finished
  deriving DecidableEq, Repr

/-- A coroutine launched by `stopRunner`, with the arguments it closes over. -/
structure StopTask where
  restart : Bool
  msg : Option String
  phase : StopPhase
  deriving DecidableEq, Repr

def StopTask.live (task : StopTask) : Bool := decide (task.phase ≠ .finished)

inductive Output where
  | changed (state : State) (msg : Option String)
  | connected (job : Nat)
  | startRunner
  | stopSelf
  deriving DecidableEq, Repr

structure Service where
  self : Nat := 0
  kind : ServiceKind
  state : State := .stopped
  session : Session := {}
  connectingJob : Option Nat := none
  jobs : List Job := []
  stops : List StopTask := []
  bootReceiver : Bool := false
  log : List Output := []
  deriving DecidableEq, Repr

namespace Service

def record (service : Service) (output : Output) : Service :=
  { service with log := service.log ++ [output] }

def changeState (service : Service) (state : State) (msg : Option String) : Service :=
  if service.state = state ∧ msg = none then service
  else { service with state := state }.record (.changed state msg)

/-! ## Stopping -/

def setStopPhase (service : Service) (stop : Nat) (phase : StopPhase) : Service :=
  match service.stops[stop]? with
  | none => service
  | some task => { service with stops := service.stops.set stop { task with phase := phase } }

def finishStop (service : Service) (stop : Nat) : Service :=
  match service.stops[stop]? with
  | none => service
  | some task =>
      let stopped := (service.changeState .stopped task.msg).setStopPhase stop .finished
      if task.restart then stopped.record .startRunner
      else { stopped with bootReceiver := false }.record .stopSelf

/-- The clean-up scope of a stop coroutine. A call that throws ends the coroutine
there; otherwise the scope waits for the children it has launched. -/
def cleanUp (service : Service) (stop : Nat) (failAt : Option Nat) : Service :=
  match failAt with
  | some calls =>
      let done := release service.self stop (service.kind.cleanUp.take calls) service.session
      { service with session := done.1 }.setStopPhase stop .finished
  | none =>
      let done := release service.self stop service.kind.cleanUp service.session
      let released := { service with session := done.1 }
      if done.2.isEmpty then released.finishStop stop
      else released.setStopPhase stop (.closing done.2)

def cancelJob (service : Service) (job : Nat) : Service :=
  match service.jobs[job]? with
  | none => service
  | some found => { service with jobs := service.jobs.set job { found with cancelled := true } }

def jobLive (service : Service) (job : Nat) : Bool :=
  match service.jobs[job]? with
  | none => false
  | some found => found.live

/-- Launch the stop coroutine and run it to its first suspension: joining the
connecting job, or waiting for the clean-up. -/
def launchStop (service : Service) (restart : Bool) (msg : Option String)
    (failAt : Option Nat) : Service :=
  let stop := service.stops.length
  match service.connectingJob with
  | some job =>
      if service.jobLive job then
        { service.cancelJob job with
          stops := service.stops ++ [⟨restart, msg, .joining job⟩] }
      else
        ({ service.cancelJob job with
          stops := service.stops ++ [⟨restart, msg, .cleaning⟩] } : Service).cleanUp stop failAt
  | none =>
      ({ service with
        stops := service.stops ++ [⟨restart, msg, .cleaning⟩] } : Service).cleanUp stop failAt

def stopRunner (service : Service) (restart : Bool) (msg : Option String)
    (failAt : Option Nat) : Service :=
  if service.state = .stopping then service
  else (service.changeState .stopping none).launchStop restart msg failAt

/-- The stop coroutine goes on after the join, or after its last child. -/
def resumeStop (service : Service) (stop : Nat) (failAt : Option Nat) : Service :=
  match service.stops[stop]? with
  | none => service
  | some task =>
      match task.phase with
      | .joining job => if service.jobLive job then service else service.cleanUp stop failAt
      | .closing [] => service.finishStop stop
      | _ => service

/-- A child of the clean-up scope ends. A failing child fails the scope. -/
def endChild (service : Service) (stop : Nat) (child : Child) (ok : Bool) : Service :=
  match service.stops[stop]? with
  | none => service
  | some task =>
      match task.phase with
      | .closing children =>
          if child ∈ children then
            service.setStopPhase stop (if ok then .closing (children.erase child) else .finished)
          else service
      | _ => service

/-! ## Starting -/

structure StartCommand where
  expanded : Option ExpandedProfile
  vpnMode : Bool := true
  prepared : Bool := true
  persistAcrossReboot : Bool := false
  deriving DecidableEq, Repr

/-- The early exits of `onStartCommand`: show an empty notification and stop. -/
def refuseStart (service : Service) (msg : String) (failAt : Option Nat) : Service :=
  { service with session := { service.session with notification := some "" } }.stopRunner
    false (some msg) failAt

def launchJob (service : Service) (command : StartCommand) (profile : Profile) : Service :=
  let session := { service.session with
    closeReceiverRegistered := true
    notification := some profile.formattedName }
  let connecting := { service with
    session := session
    bootReceiver := command.persistAcrossReboot }.changeState .connecting none
  { connecting with
    jobs := connecting.jobs ++ [{ phase := .created (service.kind.program profile.route) }]
    connectingJob := some connecting.jobs.length }

def startBase (decodedSize : String → Option Nat) (service : Service) (command : StartCommand)
    (failAt : Option Nat) : Service :=
  if service.state ≠ .stopped then service
  else
    match command.expanded with
    | none => service.refuseStart "Please select a profile" failAt
    | some expanded =>
        match ProxyInstance.init decodedSize expanded.main expanded.main.route with
        | .error msg => service.refuseStart msg failAt
        | .ok main =>
            let withMain := { service with session := { service.session with proxy := some main } }
            match expanded.udpFallback with
            | none =>
                { withMain with session := { withMain.session with udpFallback := none } }.launchJob
                  command expanded.main
            | some fallback =>
                match ProxyInstance.init decodedSize fallback expanded.main.route with
                | .error msg => withMain.refuseStart msg failAt
                | .ok udp =>
                    { withMain with
                      session := { withMain.session with udpFallback := some udp } }.launchJob
                      command expanded.main

/-- `onStartCommand` of each service: the VPN service stops itself unless it is
the chosen mode and the user has granted it. -/
def onStartCommand (decodedSize : String → Option Nat) (service : Service)
    (command : StartCommand) (failAt : Option Nat) : Service :=
  if service.kind = .vpn ∧ ¬ (command.vpnMode = true ∧ command.prepared = true) then
    service.stopRunner false none failAt
  else service.startBase decodedSize command failAt

def forceLoad (service : Service) (failAt : Option Nat) : Service :=
  if service.state = .stopped then service.record .startRunner
  else if service.state.canStop then service.stopRunner true none failAt
  else service

/-! ## The connecting job -/

def setJobPhase (service : Service) (job : Nat) (phase : JobPhase) : Service :=
  match service.jobs[job]? with
  | none => service
  | some found => { service with jobs := service.jobs.set job { found with phase := phase } }

def completeJob (service : Service) (job : Nat) : Service :=
  { service with connectingJob := none }.setJobPhase job .completed

def settleJob (service : Service) (job : Nat) (failAt : Option Nat) : Ending → Service
  | .suspended awaited rest => service.setJobPhase job (.suspended awaited rest)
  | .finished =>
      ((service.changeState .connected none).record (.connected job)).completeJob job
  | .raised .cancellation => service.completeJob job
  | .raised exc =>
      (service.stopRunner false
        (some ("Failed to connect the remote server: " ++ exc.readableMessage)) failAt).completeJob
        job

/-- One resumption of a connecting job. A job cancelled before its first run
completes without running its body, the `finally` block included. -/
def resumeJob (service : Service) (job : Nat) (outcomes : List Outcome)
    (failAt : Option Nat) : Service :=
  match service.jobs[job]? with
  | none => service
  | some found =>
      match found.phase with
      | .completed => service
      | .created program =>
          if found.cancelled then service.setJobPhase job .completed
          else
            let ran := execute service.self program outcomes service.session
            { service with session := ran.1 }.settleJob job failAt ran.2
      | .suspended awaited rest =>
          let ran := resume service.self found.cancelled awaited rest outcomes service.session
          { service with session := ran.1 }.settleJob job failAt ran.2

/-! ## Events -/

inductive Event where
  | onStartCommand (command : StartCommand) (failAt : Option Nat)
  | stopRunner (msg : Option String) (failAt : Option Nat)
  | forceLoad (failAt : Option Nat)
  | resumeJob (job : Nat) (outcomes : List Outcome) (failAt : Option Nat)
  | resumeStop (stop : Nat) (failAt : Option Nat)
  | endChild (stop : Nat) (child : Child) (ok : Bool)
  deriving DecidableEq, Repr

def step (decodedSize : String → Option Nat) (service : Service) : Event → Service
  | .onStartCommand command failAt => service.onStartCommand decodedSize command failAt
  | .stopRunner msg failAt => service.stopRunner false msg failAt
  | .forceLoad failAt => service.forceLoad failAt
  | .resumeJob job outcomes failAt => service.resumeJob job outcomes failAt
  | .resumeStop stop failAt => service.resumeStop stop failAt
  | .endChild stop child ok => service.endChild stop child ok

def run (decodedSize : String → Option Nat) (self : Nat) (kind : ServiceKind)
    (events : List Event) : Service :=
  Machine.run (step decodedSize) { self := self, kind := kind } events

end Service

end AlienConnection.Bg
