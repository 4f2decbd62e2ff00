import AlienConnection.Bg.Control
import AlienConnection.Bg.StopFrame

/-!
# The invariant of the service machine

A service is consistent when its state, coroutines and log fit together, and
sound when in addition nothing of a session is left in `stopped`. Every turn of
the main thread keeps a sound service sound. Within a turn only consistency is
kept: a job that has just acquired something may call `stopRunner`.
-/

namespace AlienConnection.Bg

open Database Library
open Library.Tasks

namespace Service

structure Consistent (service : Service) : Prop where
  control : Control service.state service.connectingJob service.jobs service.stops
    (service.session.CleanedUp service.kind)
  traced : Traced service.state service.log

structure Sound (service : Service) : Prop extends Consistent service where
  released : service.state = .stopped → service.session.CleanedUp service.kind

/-- A new service is sound. -/
theorem sound_new (self : Nat) (kind : ServiceKind) :
    ({ self := self, kind := kind } : Service).Sound where
  control := Control.of_quiet (quiet_nil _) (quiet_nil _).solo State.noConfusion
    (fun _ => quiet_nil _) (fun _ _ _ found => nomatch found)
  traced := ⟨List.isChain_singleton _, rfl⟩
  released := fun _ =>
    ⟨⟨rfl, rfl, rfl, rfl, rfl, rfl, fun _ => rfl, fun _ => rfl, fun _ => rfl⟩,
      fun _ ⟨_, member⟩ => nomatch member⟩

/-! ## Small moves -/

theorem changeState_of_ne {service : Service} {state : State}
    (differs : service.state ≠ state) (msg : Option String) :
    service.changeState state msg =
      { service with state := state, log := service.log ++ [.changed state msg] } := by
  rw [changeState, if_neg (fun same => differs same.1)]
  rfl

theorem setStopPhase_of_mem (service : Service) {stop : Nat} {task : StopTask}
    (stored : service.stops[stop]? = some task) (phase : StopPhase) :
    service.setStopPhase stop phase =
      { service with stops := service.stops.set stop { task with phase := phase } } := by
  rw [setStopPhase, stored]

theorem setJobPhase_of_mem (service : Service) {job : Nat} {found : Job}
    (stored : service.jobs[job]? = some found) (phase : JobPhase) :
    service.setJobPhase job phase =
      { service with jobs := service.jobs.set job { found with phase := phase } } := by
  rw [setJobPhase, stored]

/-- An output that is not a new state. -/
theorem Sound.record {service : Service} (sound : service.Sound) {output : Output}
    (quiet : statesOf [output] = []) : (service.record output).Sound where
  control := sound.control
  traced := sound.traced.silent quiet
  released := sound.released

/-- Outside a clean-up the session plays no part in consistency. -/
theorem Consistent.withSession {service : Service} (consistent : service.Consistent)
    (free : service.state ≠ .stopping) (session : Session) :
    ({ service with session := session } : Service).Consistent where
  control := consistent.control.retarget (fun _ _ _ place phase =>
    ((consistent.control.unstopped free).not_live place (StopTask.live_of_closing phase)).elim)
  traced := consistent.traced

/-! ## Stopping -/

/-- The end of a stop coroutine whose clean-up is complete. -/
theorem Consistent.finishStop {service : Service} (consistent : service.Consistent)
    (quiet : Quiet Job.live service.jobs) {stop : Nat} {task : StopTask}
    (stored : service.stops[stop]? = some task) (live : task.live = true)
    (released : service.session.CleanedUp service.kind) : (service.finishStop stop).Sound := by
  have stopping := consistent.control.stopping_of_live stored live
  have leaving : service.state ≠ .stopped := by
    rw [stopping]
    exact State.noConfusion
  have ended : Control .stopped service.connectingJob service.jobs
      (service.stops.set stop { task with phase := .finished })
      (service.session.CleanedUp service.kind) :=
    consistent.control.advance quiet stored live State.noConfusion (fun _ => rfl)
      (fun _ impossible => nomatch impossible)
  have traced : Traced .stopped (service.log ++ [.changed .stopped task.msg]) :=
    consistent.traced.move (by rw [stopping]; exact .finish) task.msg
  rw [Service.finishStop, stored]
  dsimp only
  rw [changeState_of_ne leaving, setStopPhase_of_mem
    { service with state := .stopped, log := service.log ++ [.changed .stopped task.msg] } stored]
  split
  · exact ⟨⟨ended, traced.silent rfl⟩, fun _ => released⟩
  · exact ⟨⟨ended, traced.silent rfl⟩, fun _ => released⟩

/-- The running stop coroutine goes on while the service stays in `stopping`. -/
theorem Consistent.advanceStop {service : Service} (consistent : service.Consistent)
    (quiet : Quiet Job.live service.jobs) {stop : Nat} {task : StopTask}
    (stored : service.stops[stop]? = some task) (live : task.live = true)
    (session : Session) (phase : StopPhase)
    (closing : ∀ children, phase = .closing children → session.CleanedUp service.kind) :
    ({ service with session := session } : Service).setStopPhase stop phase |>.Sound := by
  have stopping := consistent.control.stopping_of_live stored live
  rw [setStopPhase_of_mem { service with session := session } stored]
  refine ⟨⟨?_, consistent.traced⟩, ?_⟩
  · exact consistent.control.advance quiet stored live consistent.control.idle
      (fun left => absurd stopping left) closing
  · intro stopped
    rw [show service.state = .stopped from stopped] at stopping
    cases stopping

/-- The clean-up scope of the running stop coroutine. -/
theorem Consistent.cleanUp {service : Service} (consistent : service.Consistent)
    (quiet : Quiet Job.live service.jobs) {stop : Nat} {task : StopTask}
    (stored : service.stops[stop]? = some task) (live : task.live = true)
    (failAt : Option Nat) : (service.cleanUp stop failAt).Sound := by
  cases failAt with
  | some calls =>
      exact consistent.advanceStop quiet stored live _ _ (fun _ impossible => nomatch impossible)
  | none =>
      have done := cleanUp_cleanedUp service.self stop service.kind service.session
      have cleaned : ({ service with session :=
          (release service.self stop service.kind.cleanUp service.session).1 } :
          Service).Consistent :=
        ⟨consistent.control.retarget (fun _ _ _ _ _ => done), consistent.traced⟩
      rw [Service.cleanUp]
      split
      · exact cleaned.finishStop quiet stored live done
      · exact consistent.advanceStop quiet stored live _ _ (fun _ _ => done)

/-! ## Requests to stop -/

theorem jobLive_eq {service : Service} {job : Nat} {found : Job}
    (stored : service.jobs[job]? = some found) : service.jobLive job = found.live := by
  rw [jobLive, stored]

/-- Cancelling touches only the jobs, and keeps which of them are live. -/
theorem cancelJob_frame (service : Service) (job : Nat) :
    service.cancelJob job = { service with jobs := (service.cancelJob job).jobs } := by
  unfold cancelJob
  split <;> rfl

theorem quiet_cancelJob {service : Service} (quiet : Quiet Job.live service.jobs) (job : Nat) :
    Quiet Job.live (service.cancelJob job).jobs := by
  unfold cancelJob
  split
  next => exact quiet
  next found stored => exact quiet.replace (quiet job found stored)

theorem cancelJob_of_mem {service : Service} {job : Nat} {found : Job}
    (stored : service.jobs[job]? = some found) :
    service.cancelJob job =
      { service with jobs := service.jobs.set job { found with cancelled := true } } := by
  rw [cancelJob, stored]

/-- The service at the moment `stopRunner` is accepted, before its coroutine. -/
def accept (service : Service) : Service :=
  { service with state := .stopping, log := service.log ++ [.changed .stopping none] }

theorem stopRunner_of_free {service : Service} (free : service.state ≠ .stopping)
    (restart : Bool) (msg : Option String) (failAt : Option Nat) :
    service.stopRunner restart msg failAt = service.accept.launchStop restart msg failAt := by
  rw [stopRunner, if_neg free, changeState_of_ne free]
  rfl

theorem stopRunner_of_stopping {service : Service} (stopping : service.state = .stopping)
    (restart : Bool) (msg : Option String) (failAt : Option Nat) :
    service.stopRunner restart msg failAt = service := by
  rw [stopRunner, if_pos stopping]

theorem Consistent.accepted {service : Service} (consistent : service.Consistent)
    (free : service.state ≠ .stopping) : Traced .stopping service.accept.log :=
  consistent.traced.move (.to_stopping consistent.control.idle free) none

/-- A stop coroutine launched without a live connecting job cleans up at once. -/
theorem Consistent.launchCleaning {service : Service} (consistent : service.Consistent)
    (free : service.state ≠ .stopping) {jobs : List Job} (quiet : Quiet Job.live jobs)
    (restart : Bool) (msg : Option String) (failAt : Option Nat) :
    (({ service.accept with
      jobs := jobs
      stops := service.stops ++ [⟨restart, msg, .cleaning⟩] } : Service).cleanUp
        service.stops.length failAt).Sound := by
  have launched : ({ service.accept with
      jobs := jobs
      stops := service.stops ++ [⟨restart, msg, .cleaning⟩] } : Service).Consistent :=
    ⟨consistent.control.clean free quiet restart msg, consistent.accepted free⟩
  exact launched.cleanUp quiet List.getElem?_concat_length rfl failAt

/-- A stop coroutine launched over a live connecting job waits for it. -/
theorem Consistent.launchJoining {service : Service} (consistent : service.Consistent)
    (free : service.state ≠ .stopping) {job : Nat} {found : Job}
    (stored : service.jobs[job]? = some found) (live : found.live = true)
    (restart : Bool) (msg : Option String) :
    ({ service.accept with
      jobs := service.jobs.set job { found with cancelled := true }
      stops := service.stops ++ [⟨restart, msg, .joining job⟩] } : Service).Sound := by
  exact ⟨⟨consistent.control.overtake free stored live restart msg, consistent.accepted free⟩,
    State.noConfusion⟩

/-- A stop request on a consistent service, whatever its session holds. -/
theorem Consistent.stopRunner {service : Service} (consistent : service.Consistent)
    (restart : Bool) (msg : Option String) (failAt : Option Nat) :
    (service.stopRunner restart msg failAt).Sound := by
  by_cases stopping : service.state = .stopping
  · rw [stopRunner_of_stopping stopping]
    refine ⟨consistent, fun stopped => ?_⟩
    rw [stopped] at stopping
    cases stopping
  · rw [stopRunner_of_free stopping, launchStop]
    dsimp only
    split
    next job current =>
        split
        next alive =>
            cases stored : service.jobs[job]? with
            | none =>
                rw [jobLive, show service.accept.jobs[job]? = none from stored] at alive
                cases alive
            | some found =>
                have place : service.accept.jobs[job]? = some found := stored
                rw [jobLive_eq place] at alive
                rw [cancelJob_of_mem place]
                exact consistent.launchJoining stopping stored alive restart msg
        next dead =>
            have quiet : Quiet Job.live service.accept.jobs := by
              refine consistent.control.quiet_jobs stopping ?_
              intro index found named stored
              have place : service.accept.jobs[index]? = some found := stored
              rw [show service.connectingJob = some job from current] at named
              cases named
              rw [jobLive_eq place] at dead
              exact Bool.eq_false_iff.mpr dead
            rw [cancelJob_frame]
            exact consistent.launchCleaning stopping (quiet_cancelJob quiet job) restart msg failAt
    next current =>
        have quiet := consistent.control.quiet_jobs stopping (by
          intro index job named
          rw [show service.connectingJob = none from current] at named
          cases named)
        exact consistent.launchCleaning stopping quiet restart msg failAt

/-- The stop coroutine is resumed. -/
theorem Sound.resumeStop {service : Service} (sound : service.Sound) (stop : Nat)
    (failAt : Option Nat) : (service.resumeStop stop failAt).Sound := by
  unfold Service.resumeStop
  split
  next => exact sound
  next task stored =>
    split
    next job phase =>
        split
        next => exact sound
        next dead =>
            refine sound.toConsistent.cleanUp ?_ stored (StopTask.live_of_joining phase) failAt
            intro index other place
            cases alive : other.live with
            | false => rfl
            | true =>
                have same := sound.control.joining stop task job stored phase index other place alive
                rw [← same, jobLive_eq place] at dead
                exact absurd alive dead
    next phase =>
        obtain ⟨quiet, released⟩ := sound.control.closing stop task [] stored phase
        exact sound.toConsistent.finishStop quiet stored (StopTask.live_of_closing phase) released
    next => exact sound

/-- A child of the clean-up ends. -/
theorem Sound.endChild {service : Service} (sound : service.Sound) (stop : Nat)
    (child : Child) (ok : Bool) : (service.endChild stop child ok).Sound := by
  unfold Service.endChild
  split
  next => exact sound
  next task stored =>
    split
    next children phase =>
        split
        next =>
            obtain ⟨quiet, released⟩ := sound.control.closing stop task children stored phase
            exact sound.toConsistent.advanceStop quiet stored (StopTask.live_of_closing phase)
              service.session _ (fun _ _ => released)
        next => exact sound
    next => exact sound

/-! ## Starting -/

/-- A start is accepted. -/
theorem Consistent.launchJob {service : Service} (consistent : service.Consistent)
    (stopped : service.state = .stopped) (command : StartCommand) (profile : Profile) :
    (service.launchJob command profile).Sound := by
  have entering : service.state ≠ .connecting := by
    rw [stopped]
    exact State.noConfusion
  have control := consistent.control
  have traced := consistent.traced
  rw [stopped] at control traced
  unfold Service.launchJob
  dsimp only
  rw [changeState_of_ne (by exact entering)]
  exact ⟨⟨control.launch rfl, traced.move .start none⟩, State.noConfusion⟩

theorem Sound.startBase {service : Service} (sound : service.Sound)
    (decodedSize : String → Option Nat) (command : StartCommand) (failAt : Option Nat) :
    (service.startBase decodedSize command failAt).Sound := by
  unfold Service.startBase
  split
  next => exact sound
  next isStopped =>
    have stopped : service.state = .stopped := not_not.mp isStopped
    have free : service.state ≠ .stopping := by
      rw [stopped]
      exact State.noConfusion
    have changed := fun session => sound.toConsistent.withSession free session
    have launched := fun session => (changed session).launchJob stopped command
    split
    next => exact (changed _).stopRunner _ _ _
    next expanded _ =>
      split
      next => exact (changed _).stopRunner _ _ _
      next main _ =>
        dsimp only
        split
        next => exact launched _ _
        next fallback _ =>
          split
          next => exact (changed _).stopRunner _ _ _
          next udp _ => exact launched _ _

theorem Sound.onStartCommand {service : Service} (sound : service.Sound)
    (decodedSize : String → Option Nat) (command : StartCommand) (failAt : Option Nat) :
    (service.onStartCommand decodedSize command failAt).Sound := by
  unfold Service.onStartCommand
  split
  next => exact sound.toConsistent.stopRunner _ _ _
  next => exact sound.startBase decodedSize command failAt

theorem Sound.forceLoad {service : Service} (sound : service.Sound) (failAt : Option Nat) :
    (service.forceLoad failAt).Sound := by
  unfold Service.forceLoad
  split
  next => exact sound.record rfl
  next =>
    split
    next => exact sound.toConsistent.stopRunner _ _ _
    next => exact sound

/-! ## The connecting job -/

/-- A job that is live rules out `stopped`. -/
theorem Consistent.not_stopped {service : Service} (consistent : service.Consistent)
    {job : Nat} {found : Job} (stored : service.jobs[job]? = some found)
    (live : found.live = true) : service.state ≠ .stopped := fun stopped =>
  (consistent.control.settled (Or.inl stopped)).not_live stored live

/-- A live job that is not cancelled belongs to a connecting service. -/
theorem Consistent.connecting_of_live {service : Service} (consistent : service.Consistent)
    {job : Nat} {found : Job} (stored : service.jobs[job]? = some found)
    (live : found.live = true) (wanted : found.cancelled = false) :
    service.state = .connecting := by
  cases state : service.state with
  | connecting => rfl
  | idle => exact absurd state consistent.control.idle
  | stopped => exact absurd state (consistent.not_stopped stored live)
  | connected =>
      exact ((consistent.control.settled (Or.inr state)).not_live stored live).elim
  | stopping =>
      have cancelled := consistent.control.stopping state job found stored live
      rw [wanted] at cancelled
      cases cancelled

/-- A live job may change the session. -/
theorem Consistent.ran {service : Service} (consistent : service.Consistent)
    {job : Nat} {found : Job} (stored : service.jobs[job]? = some found)
    (live : found.live = true) (session : Session) :
    ({ service with session := session } : Service).Consistent where
  control := consistent.control.retarget (fun _ _ _ place phase =>
    absurd phase (consistent.control.not_closing stored live place))
  traced := consistent.traced

theorem Consistent.completeJob {service : Service} (consistent : service.Consistent)
    {job : Nat} {found : Job} (stored : service.jobs[job]? = some found)
    (live : found.live = true) : (service.completeJob job).Sound := by
  unfold Service.completeJob
  rw [setJobPhase_of_mem { service with connectingJob := none } stored]
  exact ⟨⟨consistent.control.complete stored live rfl consistent.control.idle (fun left => left),
    consistent.traced⟩,
    fun stopped => absurd stopped (consistent.not_stopped stored live)⟩

/-- A job without a cancellation publishes `Connected`. -/
theorem Consistent.connect {service : Service} (consistent : service.Consistent)
    {job : Nat} {found : Job} (stored : service.jobs[job]? = some found)
    (live : found.live = true) (wanted : found.cancelled = false) :
    (((service.changeState .connected none).record (.connected job)).completeJob job).Sound := by
  have connecting := consistent.connecting_of_live stored live wanted
  have entering : service.state ≠ .connected := by
    rw [connecting]
    exact State.noConfusion
  have control := consistent.control
  have traced := consistent.traced
  rw [connecting] at control traced
  rw [changeState_of_ne entering, Service.completeJob, setJobPhase_of_mem _ (by exact stored)]
  exact ⟨⟨control.complete stored live rfl State.noConfusion (fun _ => State.noConfusion),
    (traced.move .connect none).silent rfl⟩, State.noConfusion⟩

/-- Whatever way a turn of a live job ends. -/
theorem Consistent.settleJob {service : Service} (consistent : service.Consistent)
    {job : Nat} {found : Job} (stored : service.jobs[job]? = some found)
    (live : found.live = true) (failAt : Option Nat) (ending : Ending)
    (wanted : ending = .finished → found.cancelled = false) :
    (service.settleJob job failAt ending).Sound := by
  have failed : ∀ msg, ((service.stopRunner false msg failAt).completeJob job).Sound := by
    intro msg
    obtain ⟨flag, _, place⟩ :=
      (stops_stopRunner service false msg failAt).jobs job found stored
    exact (consistent.stopRunner false msg failAt).toConsistent.completeJob place live
  cases ending with
  | suspended awaited rest =>
      rw [Service.settleJob, setJobPhase_of_mem _ stored]
      exact ⟨⟨consistent.control.suspend stored live rfl, consistent.traced⟩,
        fun stopped => absurd stopped (consistent.not_stopped stored live)⟩
  | finished => exact consistent.connect stored live (wanted rfl)
  | raised exc =>
      cases exc with
      | cancellation => exact consistent.completeJob stored live
      | io message => exact failed _
      | expected message => exact failed _
      | other message => exact failed _

theorem Sound.resumeJob {service : Service} (sound : service.Sound) (job : Nat)
    (outcomes : List Outcome) (failAt : Option Nat) :
    (service.resumeJob job outcomes failAt).Sound := by
  unfold Service.resumeJob
  split
  next => exact sound
  next found stored =>
    split
    next => exact sound
    next program phase =>
      have live : found.live = true := by simp [Job.live, phase]
      have settled := fun session => (sound.toConsistent.ran stored live session).settleJob
        stored live failAt
      split
      next =>
        rw [setJobPhase_of_mem _ stored]
        exact ⟨⟨sound.control.complete stored live rfl sound.control.idle (fun left => left),
          sound.traced⟩,
          fun stopped => absurd stopped (sound.not_stopped stored live)⟩
      next wanted =>
        exact settled _ _ (fun _ => Bool.eq_false_iff.mpr wanted)
    next awaited rest phase =>
      have live : found.live = true := by simp [Job.live, phase]
      have settled := fun session => (sound.toConsistent.ran stored live session).settleJob
        stored live failAt
      refine settled _ _ (fun finished => ?_)
      cases cancelled : found.cancelled with
      | false => rfl
      | true =>
          obtain ⟨exc, raised⟩ :=
            resume_cancelled service.self awaited rest outcomes service.session
          rw [cancelled, raised] at finished
          cases finished

/-! ## Runs -/

theorem Sound.step {service : Service} (sound : service.Sound)
    (decodedSize : String → Option Nat) (event : Event) :
    (service.step decodedSize event).Sound := by
  cases event with
  | onStartCommand command failAt => exact sound.onStartCommand decodedSize command failAt
  | stopRunner msg failAt => exact sound.toConsistent.stopRunner false msg failAt
  | forceLoad failAt => exact sound.forceLoad failAt
  | resumeJob job outcomes failAt => exact sound.resumeJob job outcomes failAt
  | resumeStop stop failAt => exact sound.resumeStop stop failAt
  | endChild stop child ok => exact sound.endChild stop child ok

/-- Every reachable service is sound. -/
theorem sound_run (decodedSize : String → Option Nat) (self : Nat) (kind : ServiceKind)
    (events : List Event) : (run decodedSize self kind events).Sound :=
  Machine.run_invariant (fun _ event sound => sound.step decodedSize event)
    (sound_new self kind) events

end Service

end AlienConnection.Bg
