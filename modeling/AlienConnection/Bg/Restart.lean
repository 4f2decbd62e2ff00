import AlienConnection.Bg.Lifecycle

/-!
# Which request decides about a restart

The restart flag lives in the stop coroutine of the request that was accepted. So the
request that begins a stop decides whether its end calls `startRunner`: a reload does, any
other request does not. A request that arrives while the service is stopping is dropped, so
a stop request does not undo an earlier reload.
-/

namespace AlienConnection.Bg

open Database Library
open Library.Tasks

namespace Service

/-- The service is stopping or has just been stopped. Since the log had length `base`, only
the end of the stop may have called `startRunner`, and it has done so if `restart` is set. -/
structure Deciding (base : Nat) (restart : Bool) (service : Service) : Prop where
  state : service.state = .stopping ∨ service.state = .stopped
  bound : base ≤ service.log.length
  entered : Output.changed .stopping none ∈ service.log.drop base
  decided : Output.startRunner ∈ service.log.drop base ↔
    service.state = .stopped ∧ restart = true
  tasks : ∀ (stop : Nat) task, service.stops[stop]? = some task → task.live = true →
    task.restart = restart

namespace Deciding

variable {base : Nat} {restart : Bool} {service : Service}

/-- Only the state, the log and the stop coroutines matter. -/
theorem of_fields (deciding : Deciding base restart service) {other : Service}
    (state : other.state = service.state) (log : other.log = service.log)
    (stops : other.stops = service.stops) : Deciding base restart other := by
  refine ⟨?_, ?_, ?_, ?_, ?_⟩
  · rw [state]
    exact deciding.state
  · rw [log]
    exact deciding.bound
  · rw [log]
    exact deciding.entered
  · rw [log, state]
    exact deciding.decided
  · rw [stops]
    exact deciding.tasks

theorem setStopPhase (deciding : Deciding base restart service) {stop : Nat} {task : StopTask}
    (stored : service.stops[stop]? = some task) (live : task.live = true)
    (phase : StopPhase) : Deciding base restart (service.setStopPhase stop phase) := by
  rw [setStopPhase_of_mem service stored]
  refine ⟨deciding.state, deciding.bound, deciding.entered, deciding.decided, ?_⟩
  intro place other found alive
  rcases getElem?_set_cases found with ⟨_, replaced⟩ | ⟨_, untouched⟩
  · rw [replaced]
    exact deciding.tasks stop task stored live
  · exact deciding.tasks place other untouched alive

/-- The end of the stop coroutine, which alone looks at the flag. -/
theorem finishStop (deciding : Deciding base restart service)
    (stopping : service.state = .stopping) {stop : Nat} {task : StopTask}
    (stored : service.stops[stop]? = some task) (live : task.live = true) :
    Deciding base restart (service.finishStop stop) := by
  have leaving : service.state ≠ .stopped := by
    rw [stopping]
    exact State.noConfusion
  have quiet : Output.startRunner ∉ service.log.drop base := fun member =>
    leaving (deciding.decided.mp member).1
  have marked := (deciding.setStopPhase stored live .finished).tasks
  rw [setStopPhase_of_mem service stored] at marked
  have ended : ∀ (output : Output) (bootReceiver : Bool),
      (output = .startRunner ↔ restart = true) → Deciding base restart { service with
        state := .stopped
        stops := service.stops.set stop { task with phase := .finished }
        bootReceiver := bootReceiver
        log := service.log ++ [.changed .stopped task.msg] ++ [output] } := by
    intro output bootReceiver decides
    refine ⟨Or.inr rfl, ?_, ?_, ?_, marked⟩
    · rw [List.append_assoc, List.length_append]
      exact Nat.le_trans deciding.bound (Nat.le_add_right _ _)
    · rw [List.append_assoc, List.drop_append_of_le_length deciding.bound]
      exact List.mem_append_left _ deciding.entered
    · rw [List.append_assoc, List.drop_append_of_le_length deciding.bound, List.mem_append,
        or_iff_right quiet, ← decides]
      simp [eq_comm]
  rw [Service.finishStop, stored]
  dsimp only
  rw [changeState_of_ne leaving, setStopPhase_of_mem
    { service with state := .stopped, log := service.log ++ [.changed .stopped task.msg] } stored]
  have flag := deciding.tasks stop task stored live
  cases restart with
  | true =>
      rw [if_pos flag]
      exact ended .startRunner service.bootReceiver (by simp)
  | false =>
      rw [if_neg (by rw [flag]; exact Bool.false_ne_true)]
      exact ended .stopSelf false (by simp)

theorem cleanUp (deciding : Deciding base restart service)
    (stopping : service.state = .stopping) {stop : Nat} {task : StopTask}
    (stored : service.stops[stop]? = some task) (live : task.live = true)
    (failAt : Option Nat) : Deciding base restart (service.cleanUp stop failAt) := by
  have changed : ∀ session, Deciding base restart { service with session := session } :=
    fun _ => deciding.of_fields rfl rfl rfl
  have moved := fun session => (changed session).setStopPhase stored live
  unfold Service.cleanUp
  split
  · exact moved _ _
  · dsimp only
    split
    · exact (changed _).finishStop (by exact stopping) stored live
    · exact moved _ _

theorem setJobPhase (deciding : Deciding base restart service) (job : Nat) (phase : JobPhase) :
    Deciding base restart (service.setJobPhase job phase) := by
  unfold Service.setJobPhase
  split
  · exact deciding
  · exact deciding.of_fields rfl rfl rfl

theorem completeJob (deciding : Deciding base restart service) (job : Nat) :
    Deciding base restart (service.completeJob job) := by
  have cleared : Deciding base restart { service with connectingJob := none } :=
    deciding.of_fields rfl rfl rfl
  exact cleared.setJobPhase job .completed

theorem resumeStop (deciding : Deciding base restart service)
    (stopping : service.state = .stopping) (stop : Nat) (failAt : Option Nat) :
    Deciding base restart (service.resumeStop stop failAt) := by
  unfold Service.resumeStop
  split
  next => exact deciding
  next task stored =>
    split
    next job phase =>
        split
        next => exact deciding
        next => exact deciding.cleanUp stopping stored (StopTask.live_of_joining phase) failAt
    next phase => exact deciding.finishStop stopping stored (StopTask.live_of_closing phase)
    next => exact deciding

theorem endChild (deciding : Deciding base restart service) (stop : Nat) (child : Child)
    (ok : Bool) : Deciding base restart (service.endChild stop child ok) := by
  unfold Service.endChild
  split
  next => exact deciding
  next task stored =>
    split
    next children phase =>
        split
        next => exact deciding.setStopPhase stored (StopTask.live_of_closing phase) _
        next => exact deciding
    next => exact deciding

/-- A turn of a job while the service is stopping. -/
theorem resumeJob (deciding : Deciding base restart service) (sound : service.Sound)
    (stopping : service.state = .stopping) (job : Nat) (outcomes : List Outcome)
    (failAt : Option Nat) : Deciding base restart (service.resumeJob job outcomes failAt) := by
  unfold Service.resumeJob
  split
  next => exact deciding
  next found stored =>
    split
    next => exact deciding
    next program phase =>
      have live : found.live = true := by simp [Job.live, phase]
      rw [if_pos (sound.control.stopping stopping job found stored live)]
      exact deciding.setJobPhase job .completed
    next awaited rest phase =>
      have live : found.live = true := by simp [Job.live, phase]
      have cancelled := sound.control.stopping stopping job found stored live
      obtain ⟨exc, raised⟩ :=
        Bg.resume_cancelled service.self awaited rest outcomes service.session
      rw [cancelled, raised]
      cases exc with
      | cancellation => exact deciding.completeJob job
      | _ =>
          rw [settleJob, stopRunner_of_stopping stopping]
          · exact deciding.completeJob job
          · exact Exc.noConfusion

end Deciding

/-- Requests that arrive while the service is stopping are dropped. -/
theorem step_of_stopping {service : Service} (stopping : service.state = .stopping)
    (decodedSize : String → Option Nat) :
    (∀ command failAt, service.step decodedSize (.onStartCommand command failAt) = service) ∧
    (∀ msg failAt, service.step decodedSize (.stopRunner msg failAt) = service) ∧
    ∀ failAt, service.step decodedSize (.forceLoad failAt) = service := by
  have busy : service.state ≠ .stopped := by
    rw [stopping]
    exact State.noConfusion
  refine ⟨fun command failAt => ?_, fun msg failAt => ?_, fun failAt => ?_⟩
  · rw [step, onStartCommand, startBase, if_pos busy, stopRunner_of_stopping stopping, ite_self]
  · rw [step, stopRunner_of_stopping stopping]
  · rw [step, forceLoad, if_neg busy, stopping, if_neg (by decide)]

/-- A turn of a service that is stopping. -/
theorem Deciding.step {base : Nat} {restart : Bool} {service : Service}
    (deciding : Deciding base restart service) (sound : service.Sound)
    (stopping : service.state = .stopping) (decodedSize : String → Option Nat) (event : Event) :
    Deciding base restart (service.step decodedSize event) := by
  obtain ⟨starts, stops, reloads⟩ := step_of_stopping stopping decodedSize
  cases event with
  | onStartCommand command failAt =>
      rw [starts]
      exact deciding
  | stopRunner msg failAt =>
      rw [stops]
      exact deciding
  | forceLoad failAt =>
      rw [reloads]
      exact deciding
  | resumeJob job outcomes failAt => exact deciding.resumeJob sound stopping job outcomes failAt
  | resumeStop stop failAt => exact deciding.resumeStop stopping stop failAt
  | endChild stop child ok => exact deciding.endChild stop child ok

/-- Until the service is stopped, all turns leave the decision as it is. -/
theorem Deciding.run {base : Nat} {restart : Bool} {service : Service}
    (deciding : Deciding base restart service) (sound : service.Sound)
    (decodedSize : String → Option Nat) (events : List Event)
    (unfinished : ∀ turns < events.length,
      (Machine.run (Service.step decodedSize) service (events.take turns)).state ≠ .stopped) :
    Deciding base restart (Machine.run (Service.step decodedSize) service events) := by
  induction events generalizing service with
  | nil => exact deciding
  | cons event rest ih =>
      have busy : service.state ≠ .stopped := unfinished 0 (Nat.succ_pos _)
      have stopping := deciding.state.resolve_right busy
      refine ih (deciding.step sound stopping decodedSize event) (sound.step decodedSize event) ?_
      intro turns fewer
      exact unfinished (turns + 1) (Nat.succ_lt_succ fewer)

/-! ## The request that begins a stop -/

/-- The service enters `stopping` in a turn. It may also leave it again in the same turn. -/
def Begins (decodedSize : String → Option Nat) (service : Service) (event : Event) : Prop :=
  service.state ≠ .stopping ∧
    Output.changed .stopping none ∈ (service.step decodedSize event).log.drop service.log.length

/-- A request that is accepted, in a service without a live stop coroutine. -/
theorem deciding_stopRunner {service : Service} (free : service.state ≠ .stopping)
    (quiet : Quiet StopTask.live service.stops) (restart : Bool) (msg : Option String)
    (failAt : Option Nat) :
    Deciding service.log.length restart (service.stopRunner restart msg failAt) := by
  have launched : ∀ (jobs : List Job) (phase : StopPhase),
      Deciding service.log.length restart { service.accept with
        jobs := jobs
        stops := service.stops ++ [⟨restart, msg, phase⟩] } := by
    intro jobs phase
    refine ⟨Or.inl rfl, ?_, ?_, ?_, ?_⟩
    · rw [accept, List.length_append]
      exact Nat.le_add_right _ _
    · rw [accept, List.drop_left]
      exact List.mem_singleton_self _
    · rw [accept, List.drop_left]
      simp
    · intro stop task place alive
      rcases getElem?_launch_cases place with before | ⟨_, launched⟩
      · exact (quiet.not_live before alive).elim
      · rw [launched]
  have cleaned : ∀ jobs, Deciding service.log.length restart
      (({ service.accept with
        jobs := jobs
        stops := service.stops ++ [⟨restart, msg, .cleaning⟩] } : Service).cleanUp
          service.stops.length failAt) := fun jobs =>
    (launched jobs .cleaning).cleanUp rfl List.getElem?_concat_length rfl failAt
  rw [stopRunner_of_free free, launchStop]
  dsimp only
  split
  next job _ =>
    rw [cancelJob_frame]
    split
    next => exact launched _ _
    next => exact cleaned _
  next => exact cleaned _

/-- What a turn adds to the log tells that it does not begin a stop. -/
theorem not_begins {service after : Service} (outputs : List Output)
    (log : after.log = service.log ++ outputs)
    (other : Output.changed .stopping none ∉ outputs) :
    Output.changed .stopping none ∉ after.log.drop service.log.length := by
  rw [log, List.drop_left]
  exact other

section Begins

variable {service : Service} (free : service.state ≠ .stopping)
  (quiet : Quiet StopTask.live service.stops)

include free quiet

theorem deciding_startBase {decodedSize : String → Option Nat} {command : StartCommand}
    {failAt : Option Nat}
    (begins : Output.changed .stopping none ∈
      (service.startBase decodedSize command failAt).log.drop service.log.length) :
    Deciding service.log.length false (service.startBase decodedSize command failAt) := by
  have refused : ∀ (session : Session) msg, Deciding service.log.length false
      (({ service with session := session } : Service).refuseStart msg failAt) := fun session msg =>
    @deciding_stopRunner { service with session := { session with notification := some "" } }
      free quiet false (some msg) failAt
  have launched : ∀ (session : Session) profile, Output.changed .stopping none ∉
      (({ service with session := session } : Service).launchJob command profile).log.drop
        service.log.length := by
    intro session profile
    unfold launchJob changeState
    dsimp only
    split
    · exact not_begins [] (List.append_nil _).symm List.not_mem_nil
    · exact not_begins [.changed .connecting none] rfl (by simp)
  unfold startBase at begins ⊢
  split at begins
  · exact absurd begins (not_begins [] (List.append_nil _).symm List.not_mem_nil)
  next stopped =>
    rw [if_neg stopped]
    split at begins
    · exact refused service.session _
    · split at begins
      · exact refused service.session _
      · dsimp only at begins ⊢
        split at begins
        · exact absurd begins (launched _ _)
        · split at begins
          · exact refused _ _
          · exact absurd begins (launched _ _)

theorem deciding_settleJob (session : Session) {job : Nat} {failAt : Option Nat} {ending : Ending}
    (begins : Output.changed .stopping none ∈ (({ service with session := session } :
      Service).settleJob job failAt ending).log.drop service.log.length) :
    Deciding service.log.length false
      (({ service with session := session } : Service).settleJob job failAt ending) := by
  have kept : ∀ (service : Service) phase, (service.setJobPhase job phase).log = service.log := by
    intro service phase
    unfold setJobPhase
    split <;> rfl
  have silent : ∀ after : Service, after.log = service.log →
      Output.changed .stopping none ∉ after.log.drop service.log.length :=
    fun after same => not_begins [] (same.trans (List.append_nil _).symm) List.not_mem_nil
  have failed : ∀ msg, Deciding service.log.length false
      ((({ service with session := session } : Service).stopRunner false msg failAt).completeJob
        job) := fun msg =>
    (@deciding_stopRunner { service with session := session } free quiet false msg
      failAt).completeJob job
  cases ending with
  | suspended awaited rest => exact absurd begins (silent _ (kept _ _))
  | finished =>
      refine absurd begins ?_
      have log : (({ service with session := session } : Service).settleJob job failAt
          .finished).log = (({ service with session := session } : Service).changeState .connected
            none).log ++ [.connected job] := kept _ _
      unfold changeState at log
      split at log
      · exact not_begins _ log (by simp)
      · exact not_begins _ (log.trans (List.append_assoc _ _ _)) (by simp)
  | raised exc =>
      cases exc with
      | cancellation => exact absurd begins (silent _ (kept _ _))
      | io message => exact failed _
      | expected message => exact failed _
      | other message => exact failed _

theorem deciding_resumeJob {job : Nat} {outcomes : List Outcome} {failAt : Option Nat}
    (begins : Output.changed .stopping none ∈
      (service.resumeJob job outcomes failAt).log.drop service.log.length) :
    Deciding service.log.length false (service.resumeJob job outcomes failAt) := by
  have still : Output.changed .stopping none ∉ service.log.drop service.log.length :=
    not_begins [] (List.append_nil _).symm List.not_mem_nil
  unfold resumeJob at begins ⊢
  split at begins
  next => exact absurd begins still
  next found stored =>
    split at begins
    next => exact absurd begins still
    next program phase =>
      split at begins
      next =>
        rw [setJobPhase_of_mem _ stored] at begins
        exact absurd begins still
      next wanted =>
        dsimp only
        rw [if_neg wanted]
        exact deciding_settleJob free quiet _ begins
    next awaited rest phase => exact deciding_settleJob free quiet _ begins

omit free in
theorem resumeStop_of_quiet (stop : Nat) (failAt : Option Nat) :
    service.resumeStop stop failAt = service := by
  unfold resumeStop
  split
  next => rfl
  next task stored =>
    split
    next job phase => exact (quiet.not_live stored (StopTask.live_of_joining phase)).elim
    next phase => exact (quiet.not_live stored (StopTask.live_of_closing phase)).elim
    next => rfl

omit free in
theorem endChild_of_quiet (stop : Nat) (child : Child) (ok : Bool) :
    service.endChild stop child ok = service := by
  unfold endChild
  split
  next => rfl
  next task stored =>
    split
    next children phase => exact (quiet.not_live stored (StopTask.live_of_closing phase)).elim
    next => rfl

/-- The turn that begins a stop: it will end in a restart exactly if it is a reload. -/
theorem deciding_of_begins {decodedSize : String → Option Nat} {event : Event}
    (begins : Output.changed .stopping none ∈
      (service.step decodedSize event).log.drop service.log.length) :
    ∃ restart, (restart = true ↔ ∃ failAt, event = .forceLoad failAt) ∧
      Deciding service.log.length restart (service.step decodedSize event) := by
  have still : Output.changed .stopping none ∉ service.log.drop service.log.length :=
    not_begins [] (List.append_nil _).symm List.not_mem_nil
  cases event with
  | onStartCommand command failAt =>
      refine ⟨false, by simp, ?_⟩
      rw [step, onStartCommand] at begins ⊢
      split at begins
      next refused =>
        rw [if_pos refused]
        exact deciding_stopRunner free quiet false none failAt
      next allowed =>
        rw [if_neg allowed]
        exact deciding_startBase free quiet begins
  | stopRunner msg failAt =>
      exact ⟨false, by simp, deciding_stopRunner free quiet false msg failAt⟩
  | forceLoad failAt =>
      refine ⟨true, by simp, ?_⟩
      rw [step, forceLoad] at begins ⊢
      split at begins
      · exact absurd begins (not_begins [.startRunner] rfl (by simp))
      next running =>
        rw [if_neg running]
        split at begins
        next canStop =>
          rw [if_pos canStop]
          exact deciding_stopRunner free quiet true none failAt
        · exact absurd begins still
  | resumeJob job outcomes failAt =>
      exact ⟨false, by simp, deciding_resumeJob free quiet begins⟩
  | resumeStop stop failAt =>
      refine absurd begins ?_
      rw [step, resumeStop_of_quiet quiet]
      exact still
  | endChild stop child ok =>
      refine absurd begins ?_
      rw [step, endChild_of_quiet quiet]
      exact still

end Begins

/-- **The request that begins a stop decides.** A stop request begins a stop unless the
service is stopping already, and then it changes nothing. The end of a stop calls
`startRunner` exactly if a reload has begun it. -/
theorem restart_iff_reload (decodedSize : String → Option Nat) (self : Nat) (kind : ServiceKind)
    (before : List Event) :
    let service := Service.run decodedSize self kind before
    (service.state ≠ .stopping →
      ∀ msg failAt, service.Begins decodedSize (.stopRunner msg failAt)) ∧
    (service.state = .stopping →
      ∀ msg failAt, service.step decodedSize (.stopRunner msg failAt) = service) ∧
    ∀ event, service.Begins decodedSize event → ∀ after,
      (∀ turns < after.length, (Service.run decodedSize self kind
        (before ++ [event] ++ after.take turns)).state ≠ .stopped) →
      (Service.run decodedSize self kind (before ++ [event] ++ after)).state = .stopped →
      (Output.startRunner ∈ (Service.run decodedSize self kind
          (before ++ [event] ++ after)).log.drop service.log.length ↔
        ∃ failAt, event = .forceLoad failAt) := by
  intro service
  have sound : service.Sound := sound_run decodedSize self kind before
  refine ⟨fun free msg failAt => ⟨free, ?_⟩,
    fun stopping => (step_of_stopping stopping decodedSize).2.1, ?_⟩
  · exact (deciding_stopRunner free (sound.control.unstopped free) false msg failAt).entered
  · rintro event ⟨free, entered⟩ after unfinished stopped
    obtain ⟨restart, reload, deciding⟩ :=
      deciding_of_begins free (sound.control.unstopped free) entered
    have split : ∀ events, Service.run decodedSize self kind (before ++ [event] ++ events) =
        Machine.run (Service.step decodedSize) (service.step decodedSize event) events := by
      intro events
      rw [Service.run, Machine.run_append, Machine.run_concat]
      rfl
    have later := deciding.run (sound.step decodedSize event) decodedSize after
      (fun turns fewer => by
        rw [← split]
        exact unfinished turns fewer)
    rw [split] at stopped ⊢
    rw [later.decided, ← reload]
    exact and_iff_right stopped

def reloadEvents : List Event :=
  [.stopRunner none none, .endChild 0 .processPool true, .endChild 0 .localDns true,
    .endChild 0 (.trafficMonitor .main) true, .resumeStop 0 none]

/-- The end of the stop starts the service again. -/
theorem restart_iff_reload_dropped :
    Output.startRunner ∈ (Service.run (fun _ => none) 0 .proxy
      ([.onStartCommand plainStart none, .resumeJob 0 [] none] ++ [.forceLoad none] ++
        reloadEvents)).log.drop 3 :=
  ((restart_iff_reload (fun _ => none) 0 .proxy
    [.onStartCommand plainStart none, .resumeJob 0 [] none]).2.2 (.forceLoad none)
    ⟨by decide, by decide⟩ reloadEvents (by decide) (by decide)).mpr ⟨none, rfl⟩

/-- A stop request in the middle of a run is honoured: from it on, no turn calls
`startRunner` before the service has been stopped, the turn that stops it
included. -/
def StopHonoured (decodedSize : String → Option Nat) (self : Nat) (kind : ServiceKind)
    (before : List Event) (msg : Option String) (failAt : Option Nat)
    (after : List Event) : Prop :=
  (∀ turns < after.length, (Service.run decodedSize self kind
    (before ++ [.stopRunner msg failAt] ++ after.take turns)).state ≠ .stopped) →
  Output.startRunner ∉
    (Service.run decodedSize self kind (before ++ [.stopRunner msg failAt] ++ after)).log.drop
      (Service.run decodedSize self kind before).log.length

/-- A reload stops a connected service; the stop request that follows is dropped,
and the clean-up starts the service again. -/
theorem not_stopHonoured_reload :
    ¬ StopHonoured (fun _ => none) 0 .proxy
      [.onStartCommand plainStart none, .resumeJob 0 [] none, .forceLoad none] none none
      [.endChild 0 .processPool true, .endChild 0 .localDns true,
        .endChild 0 (.trafficMonitor .main) true, .resumeStop 0 none] := by
  intro honoured
  exact honoured (by decide) (by decide)

end Service

end AlienConnection.Bg
