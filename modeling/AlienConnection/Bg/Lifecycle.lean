import AlienConnection.Bg.ServiceInvariant

/-!
# The life of a session

What one turn does to the connecting jobs, to the log and to the messages for
the network actor, and from it the facts about whole runs: the order of states,
which job may publish a connection, and what is left when the service stops.
-/

namespace AlienConnection.Bg

open Database Library
open Library.Tasks

def OwnRequest (self : Nat) (request : NetworkRequest) : Prop :=
  request = .start (.vpnService self) ∨ StopRequest self request

theorem sent_setProxyAt (session : Session) (slot : Slot) (instance' : ProxyInstance) :
    (session.setProxyAt slot instance').sent = session.sent := by
  cases slot <;> rfl

theorem sent_perform_instr {session performed : Session} {call : Instr}
    (done : call.perform session = .ok performed) : performed.sent = session.sent := by
  have onProxy : ∀ slot change,
      session.onProxy slot change = .ok performed → performed.sent = session.sent := by
    intro slot change returned
    unfold Session.onProxy at returned
    split at returned
    · cases returned
      exact sent_setProxyAt session _ _
    · cases returned
    · cases returned
      rfl
  have started : ∀ executable,
      session.startProcess executable = .ok performed → performed.sent = session.sent := by
    intro executable returned
    unfold Session.startProcess at returned
    split at returned
    · cases returned
    · cases returned
      rfl
  cases call with
  | startRedsocks => exact started _ done
  | startTun2socks => exact started _ done
  | newTrafficMonitor slot => exact onProxy _ _ done
  | setConfigFile slot => exact onProxy _ _ done
  | writeConfig slot => exact onProxy _ _ done
  | scheduleUpdate slot => exact onProxy _ _ done
  | startSsLocal slot =>
      simp only [Instr.perform] at done
      split at done
      · cases done
        rfl
      · cases done
      · exact started _ done
  | activate =>
      simp only [Instr.perform] at done
      split at done
      · cases done
      · cases done
        rfl
  | _ =>
      cases done
      rfl

theorem sent_begin (self : Nat) (session : Session) (call : Instr) :
    Sends (OwnRequest self) session.sent (call.begin self session).sent := by
  cases call with
  | preInit => exact Sends.append _ (Or.inl rfl)
  | _ => exact Sends.refl _

/-- A running job sends nothing but the service's own start messages. -/
theorem sent_execute (self : Nat) (program : List Instr) (outcomes : List Outcome)
    (session : Session) :
    Sends (OwnRequest self) session.sent (execute self program outcomes session).1.sent := by
  fun_induction execute self program outcomes session with
  | case1 => exact Sends.refl _
  | case2 => exact Sends.refl _
  | case3 => exact sent_begin _ _ _
  | case4 => exact sent_begin _ _ _
  | case5 => exact sent_begin _ _ _
  | case6 call rest outcomes session _ begun performed done _ _ ih =>
      rw [sent_perform_instr done] at ih
      exact (sent_begin self session call).trans ih

theorem sent_resume (self : Nat) (cancelled : Bool) (awaited : Instr) (rest : List Instr)
    (outcomes : List Outcome) (session : Session) :
    Sends (OwnRequest self) session.sent
      (resume self cancelled awaited rest outcomes session).1.sent := by
  unfold resume
  split
  · exact Sends.refl _
  · split
    · exact Sends.refl _
    · split
      · exact Sends.refl _
      next performed done =>
        rw [← sent_perform_instr done]
        exact sent_execute _ _ _ _

namespace Service

/-! ## One turn -/

/-- The only way to publish `Connected`: a job that is not cancelled ends. -/
def Connects (before after : Service) (job : Nat) : Prop :=
  ∃ found next, before.jobs[job]? = some found ∧ found.cancelled = false ∧
    after.jobs[job]? = some next ∧ next.live = false

structure Turns (before after : Service) : Prop where
  self : after.self = before.self
  kind : after.kind = before.kind
  accepted : after.jobs.length ≠ before.jobs.length → before.state = .stopped
  jobs : ∀ (index : Nat) job, before.jobs[index]? = some job → ∃ next,
    after.jobs[index]? = some next ∧ (job.cancelled = true → next.cancelled = true) ∧
      (job.live = false → next.live = false)
  published : ∀ job ∈ published after.log,
    job ∈ Bg.published before.log ∨ Connects before after job
  sent : Sends (OwnRequest before.self) before.session.sent after.session.sent

theorem Stops.turns {before after : Service} (stops : Stops before after) :
    Turns before after where
  self := stops.self
  kind := stops.kind
  accepted := fun grown => absurd stops.count grown
  jobs := by
    intro index job found
    obtain ⟨flag, kept, place⟩ := stops.jobs index job found
    exact ⟨_, place, kept, fun dead => dead⟩
  published := by
    intro job member
    rw [stops.published] at member
    exact Or.inl member
  sent := stops.sent.mono (fun _ => Or.inr)

namespace Turns

theorem refl (service : Service) : Turns service service := (Stops.refl service).turns

/-- A stop request may follow a change of the session. -/
theorem stops {before middle after : Service} (turns : Turns before middle)
    (jobs : middle.jobs = before.jobs) (log : middle.log = before.log)
    (later : Stops middle after) : Turns before after where
  self := later.self.trans turns.self
  kind := later.kind.trans turns.kind
  accepted := fun grown => absurd (by rw [later.count, jobs]) grown
  jobs := by
    intro index job found
    rw [← jobs] at found
    exact later.turns.jobs index job found
  published := by
    intro job member
    rw [later.published, log] at member
    exact Or.inl member
  sent := turns.sent.trans (by rw [← turns.self]; exact later.sent.mono (fun _ => Or.inr))

/-- Replacing a job by one with the same flag that is no more live. -/
theorem replace {before after : Service} (turns : Turns before after) {job : Nat}
    {found : Job} (place : after.jobs[job]? = some found) (phase : JobPhase)
    (ended : found.live = false → phase = .completed) (connectingJob : Option Nat) :
    Turns before { after with
      connectingJob := connectingJob
      jobs := after.jobs.set job { found with phase := phase } } := by
  have inside : job < after.jobs.length := (List.getElem?_eq_some_iff.mp place).1
  have kept : ∀ (index : Nat) next, after.jobs[index]? = some next → ∃ last,
      (after.jobs.set job { found with phase := phase })[index]? = some last ∧
        last.cancelled = next.cancelled ∧ (next.live = false → last.live = false) := by
    intro index next here
    by_cases same : job = index
    · subst same
      rw [place] at here
      cases here
      refine ⟨{ found with phase := phase }, List.getElem?_set_self inside, rfl, ?_⟩
      intro dead
      rw [ended dead]
      rfl
    · exact ⟨next, by rw [List.getElem?_set_ne same]; exact here, rfl, fun dead => dead⟩
  refine ⟨turns.self, turns.kind, ?_, ?_, ?_, turns.sent⟩
  · intro grown
    rw [List.length_set] at grown
    exact turns.accepted grown
  · intro index old found
    obtain ⟨next, here, flag, dead⟩ := turns.jobs index old found
    obtain ⟨last, there, sameFlag, stillDead⟩ := kept index next here
    exact ⟨last, there, fun set => by rw [sameFlag]; exact flag set,
      fun ended => stillDead (dead ended)⟩
  · intro index member
    rcases turns.published index member with before | ⟨old, next, found, wanted, here, dead⟩
    · exact Or.inl before
    · obtain ⟨last, there, _, stillDead⟩ := kept index next here
      exact Or.inr ⟨old, last, found, wanted, there, stillDead dead⟩

end Turns

/-- A change of the session that sends only own messages. -/
theorem turns_session {service : Service} {session : Session}
    (sent : Sends (OwnRequest service.self) service.session.sent session.sent) :
    Turns service { service with session := session } :=
  ⟨rfl, rfl, fun grown => absurd rfl grown,
    fun _ job found => ⟨job, found, fun set => set, fun dead => dead⟩,
    fun _ member => Or.inl member, sent⟩

theorem turns_launchJob {service : Service} (stopped : service.state = .stopped)
    (command : StartCommand) (profile : Profile) {session : Session}
    (sent : session.sent = service.session.sent) :
    Turns service (({ service with session := session } : Service).launchJob command profile) := by
  have listed : ∀ (log : List Output) (state : State),
      Bg.published log = Bg.published service.log →
      Turns service { service with
        session := { session with
          closeReceiverRegistered := true
          notification := some profile.formattedName }
        bootReceiver := command.persistAcrossReboot
        state := state
        log := log
        jobs := service.jobs ++ [{ phase := .created (service.kind.program profile.route) }]
        connectingJob := some service.jobs.length } := by
    intro log state same
    refine ⟨rfl, rfl, fun _ => stopped, ?_, ?_, ?_⟩
    · intro index job found
      refine ⟨job, ?_, fun set => set, fun dead => dead⟩
      rw [List.getElem?_append_left (List.getElem?_eq_some_iff.mp found).1]
      exact found
    · intro job member
      rw [show Bg.published log = _ from same] at member
      exact Or.inl member
    · rw [show session.sent = _ from sent]
      exact Sends.refl _
  unfold launchJob changeState
  dsimp only
  split
  · exact listed service.log service.state rfl
  · refine listed (service.log ++ [.changed .connecting none]) .connecting ?_
    rw [published_append]
    exact List.append_nil _

theorem turns_startBase (decodedSize : String → Option Nat) (service : Service)
    (command : StartCommand) (failAt : Option Nat) :
    Turns service (service.startBase decodedSize command failAt) := by
  unfold startBase
  split
  · exact Turns.refl service
  next isStopped =>
    have stopped : service.state = .stopped := not_not.mp isStopped
    have refused : ∀ session : Session, session.sent = service.session.sent → ∀ msg,
        Turns service (({ service with session := session } : Service).refuseStart msg failAt) := by
      intro session sent msg
      have changed : Turns service { service with session := session } :=
        turns_session (by rw [sent]; exact Sends.refl _)
      exact changed.stops rfl rfl (stops_refuseStart _ msg failAt)
    split
    · exact refused service.session rfl _
    · split
      · exact refused service.session rfl _
      · dsimp only
        split
        · exact turns_launchJob stopped command _ rfl
        · split
          · refine refused _ ?_ _
            rfl
          · exact turns_launchJob stopped command _ rfl

/-- The end of a turn of a job, which may have changed the session before. -/
theorem turns_settleJob {service : Service} {job : Nat} {found : Job}
    (stored : service.jobs[job]? = some found) (live : found.live = true)
    {session : Session} (sent : Sends (OwnRequest service.self) service.session.sent session.sent)
    (failAt : Option Nat) {ending : Ending}
    (wanted : ending = .finished → found.cancelled = false) :
    Turns service
      (({ service with session := session } : Service).settleJob job failAt ending) := by
  have changed := turns_session sent
  have alive : found.live = false → ∀ phase, phase = JobPhase.completed := by
    intro dead
    rw [live] at dead
    cases dead
  have failed : ∀ msg, Turns service
      ((({ service with session := session } : Service).stopRunner false msg failAt).completeJob
        job) := by
    intro msg
    have requested := stops_stopRunner ({ service with session := session } : Service) false msg
      failAt
    obtain ⟨flag, _, place⟩ := requested.jobs job found stored
    rw [completeJob, setJobPhase_of_mem _ (by exact place)]
    exact (changed.stops rfl rfl requested).replace place _ (fun _ => rfl) none
  cases ending with
  | suspended awaited rest =>
      rw [settleJob, setJobPhase_of_mem _ (by exact stored)]
      exact changed.replace stored _ (fun dead => alive dead _) service.connectingJob
  | raised exc =>
      cases exc with
      | cancellation =>
          rw [settleJob, completeJob, setJobPhase_of_mem _ (by exact stored)]
          exact changed.replace stored _ (fun _ => rfl) none
      | io message => exact failed _
      | expected message => exact failed _
      | other message => exact failed _
  | finished =>
      have moved := stops_changeState ({ service with session := session } : Service) .connected
        none
      obtain ⟨flag, _, place⟩ := moved.jobs job found stored
      have done := (changed.stops rfl rfl moved).replace place .completed
        (fun _ => rfl) none
      rw [settleJob, completeJob, setJobPhase_of_mem _ (by exact place)]
      refine ⟨done.self, done.kind, done.accepted, done.jobs, ?_, done.sent⟩
      intro index member
      rw [record, published_append] at member
      rcases List.mem_append.mp member with before | here
      · exact done.published index before
      · have same : index = job := List.mem_singleton.mp here
        subst same
        refine Or.inr ⟨found, _, stored, wanted rfl,
          List.getElem?_set_self (List.getElem?_eq_some_iff.mp place).1, rfl⟩

theorem turns_resumeJob (service : Service) (job : Nat) (outcomes : List Outcome)
    (failAt : Option Nat) : Turns service (service.resumeJob job outcomes failAt) := by
  unfold resumeJob
  split
  · exact Turns.refl service
  next found stored =>
    split
    · exact Turns.refl service
    next program phase =>
      have live : found.live = true := by simp [Job.live, phase]
      split
      · rw [setJobPhase_of_mem _ stored]
        exact (Turns.refl service).replace stored _ (fun _ => rfl) service.connectingJob
      next wanted =>
        exact turns_settleJob stored live (sent_execute _ _ _ _) failAt
          (fun _ => Bool.eq_false_iff.mpr wanted)
    next awaited rest phase =>
      have live : found.live = true := by simp [Job.live, phase]
      refine turns_settleJob stored live (sent_resume _ _ _ _ _ _) failAt (fun finished => ?_)
      cases cancelled : found.cancelled with
      | false => rfl
      | true =>
          obtain ⟨exc, raised⟩ :=
            resume_cancelled service.self awaited rest outcomes service.session
          rw [cancelled, raised] at finished
          cases finished

theorem turns_step (decodedSize : String → Option Nat) (service : Service) (event : Event) :
    Turns service (service.step decodedSize event) := by
  cases event with
  | onStartCommand command failAt =>
      rw [step, onStartCommand]
      split
      · exact (stops_stopRunner service _ _ _).turns
      · exact turns_startBase decodedSize service command failAt
  | stopRunner msg failAt => exact (stops_stopRunner service _ _ _).turns
  | forceLoad failAt => exact (stops_forceLoad service failAt).turns
  | resumeJob job outcomes failAt => exact turns_resumeJob service job outcomes failAt
  | resumeStop stop failAt => exact (stops_resumeStop service stop failAt).turns
  | endChild stop child ok => exact (stops_endChild service stop child ok).turns

/-! ## Whole runs -/

theorem run_kind (decodedSize : String → Option Nat) (self : Nat) (kind : ServiceKind)
    (events : List Event) : (run decodedSize self kind events).kind = kind := by
  have kept : ∀ (service : Service) event, service.kind = kind →
      (service.step decodedSize event).kind = kind := fun service event same =>
    (turns_step decodedSize service event).kind.trans same
  exact Machine.run_invariant kept rfl events

def Announced (service : Service) : Prop :=
  ∀ job ∈ Bg.published service.log, ∃ found, service.jobs[job]? = some found ∧
    found.live = false

theorem Announced.turn {before after : Service} (announced : Announced before)
    (turns : Turns before after) : Announced after := by
  intro job member
  rcases turns.published job member with earlier | ⟨_, next, _, _, place, dead⟩
  · obtain ⟨found, place, dead⟩ := announced job earlier
    obtain ⟨next, there, _, stillDead⟩ := turns.jobs job found place
    exact ⟨next, there, stillDead dead⟩
  · exact ⟨next, place, dead⟩

theorem announced_run (decodedSize : String → Option Nat) (self : Nat) (kind : ServiceKind)
    (events : List Event) : Announced (run decodedSize self kind events) :=
  Machine.run_invariant (fun service event announced =>
    announced.turn (turns_step decodedSize service event)) (fun _ member => nomatch member) events

def Overtaken (job : Nat) (service : Service) : Prop :=
  job ∉ Bg.published service.log ∧ ∃ found, service.jobs[job]? = some found ∧
    found.cancelled = true

theorem Overtaken.turn {job : Nat} {before after : Service} (overtaken : Overtaken job before)
    (turns : Turns before after) : Overtaken job after := by
  obtain ⟨unpublished, found, place, cancelled⟩ := overtaken
  obtain ⟨next, there, kept, _⟩ := turns.jobs job found place
  refine ⟨?_, next, there, kept cancelled⟩
  intro member
  rcases turns.published job member with earlier | ⟨other, _, here, wanted, _⟩
  · exact unpublished earlier
  · rw [place] at here
    cases here
    rw [cancelled] at wanted
    cases wanted

/-- A job still live when the service stops is overtaken. -/
theorem overtaken_of_stopping {service : Service} (sound : service.Sound)
    (announced : Announced service) (stopping : service.state = .stopping) {job : Nat}
    (live : service.jobLive job = true) : Overtaken job service := by
  unfold jobLive at live
  split at live
  · cases live
  next found place =>
    refine ⟨?_, found, place, sound.control.stopping stopping job found place live⟩
    intro member
    obtain ⟨other, there, dead⟩ := announced job member
    rw [place] at there
    cases there
    rw [live] at dead
    cases dead

/-- Along every run the state follows the six transitions and ends in the present
one; a job overtaken by a stop never publishes `Connected`; a job is accepted in
`stopped` only; and at most one stop coroutine is in progress. -/
theorem lifecycle (decodedSize : String → Option Nat) (self : Nat) (kind : ServiceKind) :
    (∀ events, Traced (run decodedSize self kind events).state
      (run decodedSize self kind events).log) ∧
    (∀ before after job, (run decodedSize self kind before).state = .stopping →
      (run decodedSize self kind before).jobLive job = true →
      job ∉ Bg.published (run decodedSize self kind (before ++ after)).log) ∧
    (∀ events event, (run decodedSize self kind (events ++ [event])).jobs.length ≠
        (run decodedSize self kind events).jobs.length →
      (run decodedSize self kind events).state = .stopped) ∧
    ∀ events, ((run decodedSize self kind events).stops.filter StopTask.live).length ≤ 1 := by
  refine ⟨?_, ?_, ?_, ?_⟩
  · intro events
    exact (sound_run decodedSize self kind events).traced
  · intro before after job stopping live
    have overtaken := overtaken_of_stopping (sound_run decodedSize self kind before)
      (announced_run decodedSize self kind before) stopping live
    have later : Overtaken job (run decodedSize self kind (before ++ after)) := by
      rw [run, Machine.run_append]
      exact Machine.run_invariant (fun service event overtaken =>
        overtaken.turn (turns_step decodedSize service event)) overtaken after
    exact later.1
  · intro events event grown
    rw [run, Machine.run_concat] at grown
    exact (turns_step decodedSize _ event).accepted grown
  · intro events
    exact (sound_run decodedSize self kind events).control.soleStop.count_le_one

def plainStart : StartCommand := { expanded := some ⟨{ id := 1, method := "none" }, none⟩ }

/-- A stop lands while the job waits for the network listener. -/
theorem lifecycle_overtaken :
    (run (fun _ => none) 0 .vpn [.onStartCommand plainStart none,
      .resumeJob 0 [.ok, .suspend] none, .stopRunner none none]).state = .stopping ∧
    0 ∉ Bg.published (run (fun _ => none) 0 .vpn ([.onStartCommand plainStart none,
      .resumeJob 0 [.ok, .suspend] none, .stopRunner none none] ++
      [.resumeJob 0 [] none, .resumeStop 0 none])).log :=
  ⟨by decide, (lifecycle (fun _ => none) 0 .vpn).2.1 _ _ 0 (by decide) (by decide)⟩

/-- Whenever the service is stopped nothing of a session is left and no job is
live. -/
theorem released_of_stopped (decodedSize : String → Option Nat) (self : Nat)
    (kind : ServiceKind) (events : List Event)
    (stopped : (run decodedSize self kind events).state = .stopped) :
    (run decodedSize self kind events).session.Released kind ∧
      Quiet Job.live (run decodedSize self kind events).jobs := by
  have sound := sound_run decodedSize self kind events
  constructor
  · have released := (sound.released stopped).released
    rw [run_kind] at released
    exact released
  · exact sound.control.settled (Or.inl stopped)

/-- A VPN session that fails half-way is cleaned up. -/
theorem released_of_stopped_failure :
    (run (fun _ => none) 0 .vpn [.onStartCommand plainStart none, .resumeJob 0 [.ok, .suspend] none,
      .resumeJob 0 [.ok, .ok, .ok, .throws (.io "no space left")] none, .resumeStop 0 none,
      .endChild 0 .processPool true, .endChild 0 .network true, .endChild 0 .worker true,
      .endChild 0 (.trafficMonitor .main) true, .resumeStop 0 none]).session.Released .vpn :=
  (released_of_stopped (fun _ => none) 0 .vpn _ (by decide)).1

end Service

end AlienConnection.Bg
