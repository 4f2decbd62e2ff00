import AlienConnection.Bg.Service

/-!
# The home screen

`MainActivity` runs on the main thread, so an event is one turn of it: a click, a callback
of the life cycle or of the service, or one resumption of a coroutine. Which coroutine the
main thread resumes next is the choice of the event.
-/

namespace AlienConnection.Ui

/-- The values 0, 1 and 2 of `nowClickState`. -/
inductive ClickState where
  | connecting | idle | disconnecting
  deriving DecidableEq, Repr

/-- The values 0, 1 and 2 of `showVpnState`. -/
inductive ShowState where
  | stopped | working | connected
  deriving DecidableEq, Repr

/-- Where the coroutine of `startVpn` waits. -/
inductive ConnectJob where
  /-- In `haveVpnData`, after which it returns. -/
  | fetching
  /-- In `delay(2000)`. -/
  | waiting
  /-- In `delay(3000)`, after which it only reports. -/
  | lingering
  deriving DecidableEq, Repr

/-- A coroutine of `showConnectAd`, or the advertisement that it has shown. -/
inductive AdJob where
  /-- In its loop. -/
  | looping
  /-- Cancelled in its loop, with the `catch` block still to run. -/
  | cancelled
  /-- The advertisement is on the screen until its close callback. -/
  | shown
  deriving DecidableEq, Repr

def AdJob.cancel : AdJob → AdJob
  | .looping => .cancelled
  | .cancelled => .cancelled
  | .shown => .shown

inductive AdOutcome where
  | timeout
  | shown
  /-- `showAd` finds that the server has changed, and drops the close callback. -/
  | refused
  deriving DecidableEq, Repr

inductive FinishKind where
  | connectFun | disConnectFun
  deriving DecidableEq, Repr

structure FinishJob where
  kind : FinishKind
  /-- It is in the delay of `startToEndActicirty`. -/
  sleeping : Bool := false
  deriving DecidableEq, Repr

inductive ActivityCall where
  /-- `addHisVpn()` and `Core.startService()`. -/
  | startService
  | stopService
  /-- `startTime()`, or `startTime(t)` with the time that `onServiceConnected` picks. -/
  | startTime (picked : Bool)
  | stopTime
  deriving DecidableEq, Repr

structure MainActivity where
  /-- `App.vvState`. -/
  vvState : Bool
  nowClickState : ClickState := .idle
  showVpnState : ShowState := .stopped
  connectJob : Option ConnectJob := none
  adJobs : List AdJob := []
  finishJobs : List FinishJob := []
  deriving DecidableEq, Repr

namespace FinishKind

def shows : FinishKind → ShowState
  | .connectFun => .connected
  | .disConnectFun => .stopped

def calls : FinishKind → ActivityCall
  | .connectFun => .startTime false
  | .disConnectFun => .stopTime

end FinishKind

namespace MainActivity

def launch (kind : FinishKind) (activity : MainActivity) : MainActivity :=
  { activity with finishJobs := activity.finishJobs ++ [{ kind := kind }] }

def connectFun := launch .connectFun

def disConnectFun := launch .disConnectFun

def showFinishAd (activity : MainActivity) : MainActivity × Option ActivityCall :=
  match activity.nowClickState with
  | .connecting => (activity.connectFun, none)
  | .idle => (activity, none)
  | .disconnecting => (activity, some .stopService)

/-- `showConnectAd`, where `blocked` tells whether advertisements are switched off. Only the
last coroutine that it has launched can be in its loop, so that is the one it cancels. -/
def showConnectAd (blocked : Bool) (activity : MainActivity) : MainActivity × Option ActivityCall :=
  if blocked then activity.showFinishAd
  else ({ activity with adJobs := activity.adJobs.map AdJob.cancel ++ [.looping] }, none)

/-- `startVpn`, up to the first suspension of its coroutine. Without a list of servers the
coroutine loads one and ends. -/
def startVpn (available : Bool) (activity : MainActivity) : MainActivity :=
  if available then
    { activity with
      nowClickState := if activity.vvState then .disconnecting else .connecting
      showVpnState := .working
      connectJob := some .waiting }
  else { activity with connectJob := some .fetching }

def clickBlock (available : Bool) (activity : MainActivity) : MainActivity :=
  if activity.showVpnState ≠ .working then activity.startVpn available else activity

def resumeConnect (blocked : Bool) (activity : MainActivity) : MainActivity × Option ActivityCall :=
  match activity.connectJob with
  | some .waiting =>
      match activity.nowClickState with
      | .connecting =>
          ({ activity with connectJob := some .lingering }, some .startService)
      | .idle => ({ activity with connectJob := none }, none)
      | .disconnecting => { activity with connectJob := none }.showConnectAd blocked
  | some .fetching | some .lingering | none => ({ activity with connectJob := none }, none)

def dropAd (position : Nat) (activity : MainActivity) : MainActivity :=
  { activity with adJobs := activity.adJobs.eraseIdx position }

/-- The end of the loop at a position, or the callback that it has left behind. -/
def resumeAd (position : Nat) (outcome : AdOutcome) (activity : MainActivity) :
    MainActivity × Option ActivityCall :=
  match activity.adJobs[position]?, outcome with
  | none, _ => (activity, none)
  | some .looping, .shown => ({ activity with adJobs := activity.adJobs.set position .shown }, none)
  | some .looping, .refused => (activity.dropAd position, none)
  | some _, _ => (activity.dropAd position).showFinishAd

/-- A coroutine of `connectFun` or `disConnectFun` goes on. It waits once, in
`startToEndActicirty`, unless `nowClickState` is 1. -/
def resumeFinish (position : Nat) (activity : MainActivity) : MainActivity × Option ActivityCall :=
  match activity.finishJobs[position]? with
  | none => (activity, none)
  | some job =>
      if job.sleeping = true ∨ activity.nowClickState = .idle then
        ({ activity with
            finishJobs := activity.finishJobs.eraseIdx position
            showVpnState := job.kind.shows }, some job.kind.calls)
      else
        ({ activity with
            nowClickState := .idle
            finishJobs := activity.finishJobs.set position { job with sleeping := true } }, none)

def onStop (activity : MainActivity) : MainActivity :=
  match activity.showVpnState, activity.nowClickState with
  | .working, .connecting => { activity with nowClickState := .idle, showVpnState := .stopped }
  | .working, .disconnecting =>
      { activity with nowClickState := .idle, showVpnState := .connected }
  | _, _ => activity

def stateChanged (state : Bg.State) (blocked : Bool) (activity : MainActivity) :
    MainActivity × Option ActivityCall :=
  match state with
  | .connected => { activity with vvState := true }.showConnectAd blocked
  | .stopped => ({ activity with vvState := false }.disConnectFun, none)
  | _ => (activity, none)

def onServiceConnected (state : Bg.State) (activity : MainActivity) :
    MainActivity × Option ActivityCall :=
  match state with
  | .connected =>
      ({ activity with vvState := true, showVpnState := .connected }, some (.startTime true))
  | .stopped => ({ activity with vvState := false, showVpnState := .stopped }, none)
  | _ => (activity, none)

inductive Event where
  | click (available : Bool)
  /-- `startVpn` without the check of `clickBlock`: the permission is given, or another
  screen returns with the wish to connect. -/
  | startVpn (available : Bool)
  | connectJob (blocked : Bool)
  | adJob (position : Nat) (outcome : AdOutcome)
  | finishJob (position : Nat)
  | onStop
  | stateChanged (state : Bg.State) (blocked : Bool)
  | onServiceConnected (state : Bg.State)

def perform (activity : MainActivity) : Event → MainActivity × Option ActivityCall
  | .click available => (activity.clickBlock available, none)
  | .startVpn available => (activity.startVpn available, none)
  | .connectJob blocked => activity.resumeConnect blocked
  | .adJob position outcome => activity.resumeAd position outcome
  | .finishJob position => activity.resumeFinish position
  | .onStop => (activity.onStop, none)
  | .stateChanged state blocked => activity.stateChanged state blocked
  | .onServiceConnected state => activity.onServiceConnected state

def step (activity : MainActivity) (event : Event) : MainActivity := (activity.perform event).1

/-- The activity when it is created. The layout starts with 0 as the state it shows. -/
def created (vvState : Bool) : MainActivity := { vvState := vvState }

end MainActivity

end AlienConnection.Ui
