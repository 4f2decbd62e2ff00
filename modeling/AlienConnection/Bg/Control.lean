import Mathlib.Data.List.Chain
import AlienConnection.Bg.Service

/-!
# What ties the state to its coroutines

`Control` relates the state, the connecting jobs, the stop coroutines and the
session. `Traced` says which values the state has taken. Each is followed by the
ways in which a turn of the main thread can move it.
-/

namespace AlienConnection.Bg

open Library.Tasks

/-! ## State, jobs and stop coroutines -/

/-- Jobs and stop coroutines as the state allows them. `released` says that
nothing of a session is left. -/
structure Control (state : State) (connectingJob : Option Nat) (jobs : List Job)
    (stops : List StopTask) (released : Prop) : Prop where
  soleJob : Solo Job.live jobs
  soleStop : Solo StopTask.live stops
  idle : state ≠ .idle
  settled : state = .stopped ∨ state = .connected → Quiet Job.live jobs
  unstopped : state ≠ .stopping → Quiet StopTask.live stops
  connecting : state = .connecting → ∀ (index : Nat) job, jobs[index]? = some job →
    job.live = true → connectingJob = some index ∧ job.cancelled = false
  stopping : state = .stopping → ∀ (index : Nat) job, jobs[index]? = some job →
    job.live = true → job.cancelled = true
  joining : ∀ (stop : Nat) task target, stops[stop]? = some task →
    task.phase = .joining target → ∀ (index : Nat) job, jobs[index]? = some job →
    job.live = true → index = target
  closing : ∀ (stop : Nat) task children, stops[stop]? = some task →
    task.phase = .closing children → Quiet Job.live jobs ∧ released

theorem StopTask.live_of_joining {task : StopTask} {job : Nat}
    (phase : task.phase = .joining job) : task.live = true := by
  simp [StopTask.live, phase]

theorem StopTask.live_of_closing {task : StopTask} {children : List Child}
    (phase : task.phase = .closing children) : task.live = true := by
  simp [StopTask.live, phase]

namespace Control

variable {state : State} {connectingJob : Option Nat} {jobs : List Job}
  {stops : List StopTask} {released : Prop}

/-- With no live job only the stop coroutines and the session matter. -/
theorem of_quiet (quiet : Quiet Job.live jobs) (solo : Solo StopTask.live stops)
    (idle : state ≠ .idle) (unstopped : state ≠ .stopping → Quiet StopTask.live stops)
    (closing : ∀ (stop : Nat) task children, stops[stop]? = some task →
      task.phase = .closing children → released) :
    Control state connectingJob jobs stops released where
  soleJob := quiet.solo
  soleStop := solo
  idle := idle
  settled := fun _ => quiet
  unstopped := unstopped
  connecting := fun _ _ _ found live => (quiet.not_live found live).elim
  stopping := fun _ _ _ found live => (quiet.not_live found live).elim
  joining := fun _ _ _ _ _ _ _ found live => (quiet.not_live found live).elim
  closing := fun stop task children found phase => ⟨quiet, closing stop task children found phase⟩

/-- A live stop coroutine exists only while the service is stopping. -/
theorem stopping_of_live (control : Control state connectingJob jobs stops released)
    {stop : Nat} {task : StopTask} (found : stops[stop]? = some task)
    (live : task.live = true) : state = .stopping := by
  by_contra other
  exact (control.unstopped other).not_live found live

/-- While a job is live no clean-up has begun. -/
theorem not_closing (control : Control state connectingJob jobs stops released)
    {index : Nat} {job : Job} (found : jobs[index]? = some job) (live : job.live = true)
    {stop : Nat} {task : StopTask} {children : List Child}
    (stored : stops[stop]? = some task) : task.phase ≠ .closing children := by
  intro phase
  exact (control.closing stop task children stored phase).1.not_live found live

/-- Outside `stopping`, no job is live unless it is the connecting one. -/
theorem quiet_jobs (control : Control state connectingJob jobs stops released)
    (free : state ≠ .stopping)
    (dead : ∀ (index : Nat) job, connectingJob = some index → jobs[index]? = some job →
      job.live = false) : Quiet Job.live jobs := by
  cases state with
  | idle => exact absurd rfl control.idle
  | stopping => exact absurd rfl free
  | stopped => exact control.settled (Or.inl rfl)
  | connected => exact control.settled (Or.inr rfl)
  | connecting =>
      intro index job found
      cases live : job.live with
      | false => rfl
      | true =>
          have current := (control.connecting rfl index job found live).1
          rw [dead index job current found] at live
          cases live

/-- A stop request takes over a live connecting job. -/
theorem overtake (control : Control state connectingJob jobs stops released)
    (free : state ≠ .stopping) {job : Nat} {found : Job} (stored : jobs[job]? = some found)
    (live : found.live = true) (restart : Bool) (msg : Option String) :
    Control .stopping connectingJob (jobs.set job { found with cancelled := true })
      (stops ++ [⟨restart, msg, .joining job⟩]) released := by
  have newest := control.soleJob job found stored live
  have quiet := control.unstopped free
  have only : ∀ (index : Nat) other,
      (jobs.set job { found with cancelled := true })[index]? = some other →
      other.live = true → index = job ∧ other.cancelled = true := by
    intro index other place alive
    rcases getElem?_set_cases place with ⟨same, replaced⟩ | ⟨differs, untouched⟩
    · exact ⟨same, by rw [replaced]⟩
    · have last := control.soleJob index other untouched alive
      omega
  exact {
    soleJob := control.soleJob.replace newest _
    soleStop := quiet.launch _
    idle := State.noConfusion
    settled := fun reached => by rcases reached with reached | reached <;> cases reached
    unstopped := fun other => absurd rfl other
    connecting := State.noConfusion
    stopping := fun _ index other place alive => (only index other place alive).2
    joining := by
      intro stop task target place phase index other jobPlace alive
      rcases getElem?_launch_cases place with before | ⟨_, launched⟩
      · exact (quiet.not_live before (StopTask.live_of_joining phase)).elim
      · rw [launched] at phase
        cases phase
        exact (only index other jobPlace alive).1
    closing := by
      intro stop task children place phase
      rcases getElem?_launch_cases place with before | ⟨_, launched⟩
      · exact (quiet.not_live before (StopTask.live_of_closing phase)).elim
      · rw [launched] at phase
        cases phase }

/-- A stop request without a live connecting job goes to its clean-up at once. -/
theorem clean (control : Control state connectingJob jobs stops released)
    (free : state ≠ .stopping) {cancelledJobs : List Job}
    (quiet : Quiet Job.live cancelledJobs) (restart : Bool) (msg : Option String) :
    Control .stopping connectingJob cancelledJobs
      (stops ++ [⟨restart, msg, .cleaning⟩]) released := by
  have quietStops := control.unstopped free
  refine of_quiet quiet (quietStops.launch _) State.noConfusion (fun other => absurd rfl other) ?_
  intro stop task children place phase
  rcases getElem?_launch_cases place with before | ⟨_, launched⟩
  · exact (quietStops.not_live before (StopTask.live_of_closing phase)).elim
  · rw [launched] at phase
    cases phase

/-- The running stop coroutine goes on, when no job is left. -/
theorem advance {target : State} {job : Option Nat} {kept : Prop}
    (control : Control state connectingJob jobs stops released)
    (quiet : Quiet Job.live jobs) {stop : Nat} {task : StopTask}
    (stored : stops[stop]? = some task) (live : task.live = true) (idle : target ≠ .idle)
    {next : StopTask} (finished : target ≠ .stopping → next.live = false)
    (closing : ∀ children, next.phase = .closing children → kept) :
    Control target job jobs (stops.set stop next) kept := by
  have newest := control.soleStop stop task stored live
  refine of_quiet quiet (control.soleStop.replace newest next) idle ?_ ?_
  · intro left
    exact control.soleStop.finish newest (finished left)
  · intro place other children found phase
    rcases getElem?_set_cases found with ⟨_, replaced⟩ | ⟨differs, untouched⟩
    · exact closing children (by rw [← replaced]; exact phase)
    · have last := control.soleStop place other untouched (StopTask.live_of_closing phase)
      omega

/-- A job suspends. The session may have changed before. -/
theorem suspend {kept : Prop} (control : Control state connectingJob jobs stops released)
    {job : Nat} {found next : Job} (stored : jobs[job]? = some found)
    (live : found.live = true) (same : next.cancelled = found.cancelled) :
    Control state connectingJob (jobs.set job next) stops kept := by
  have newest := control.soleJob job found stored live
  have only : ∀ (index : Nat) other, (jobs.set job next)[index]? = some other →
      other.live = true → index = job ∧ other.cancelled = found.cancelled := by
    intro index other place alive
    rcases getElem?_set_cases place with ⟨here, replaced⟩ | ⟨differs, untouched⟩
    · exact ⟨here, by rw [replaced, same]⟩
    · have last := control.soleJob index other untouched alive
      omega
  exact {
    soleJob := control.soleJob.replace newest next
    soleStop := control.soleStop
    idle := control.idle
    settled := fun reached => ((control.settled reached).not_live stored live).elim
    unstopped := control.unstopped
    connecting := by
      intro reached index other place alive
      obtain ⟨here, flag⟩ := only index other place alive
      rw [here, flag]
      exact control.connecting reached job found stored live
    stopping := by
      intro reached index other place alive
      rw [(only index other place alive).2]
      exact control.stopping reached job found stored live
    joining := by
      intro stop task target place phase index other jobPlace alive
      rw [(only index other jobPlace alive).1]
      exact control.joining stop task target place phase job found stored live
    closing := fun _ _ _ place phase =>
      absurd phase (control.not_closing stored live place) }

/-- A job ends. The state may go on to another one outside `stopping`. -/
theorem complete {target : State} {other : Option Nat} {kept : Prop}
    (control : Control state connectingJob jobs stops released)
    {job : Nat} {found next : Job} (stored : jobs[job]? = some found)
    (live : found.live = true) (dead : next.live = false) (idle : target ≠ .idle)
    (free : target ≠ .stopping → state ≠ .stopping) :
    Control target other (jobs.set job next) stops kept := by
  have newest := control.soleJob job found stored live
  refine of_quiet (control.soleJob.finish newest dead) control.soleStop idle ?_ ?_
  · intro left
    exact control.unstopped (free left)
  · intro stop task children place phase
    exact absurd phase (control.not_closing stored live place)

/-- A start is accepted: a fresh job, with no other coroutine live. -/
theorem launch {kept : Prop} (control : Control .stopped connectingJob jobs stops released)
    {job : Job} (fresh : job.cancelled = false) :
    Control .connecting (some jobs.length) (jobs ++ [job]) stops kept := by
  have quiet := control.settled (Or.inl rfl)
  have quietStops := control.unstopped State.noConfusion
  exact {
    soleJob := quiet.launch job
    soleStop := control.soleStop
    idle := State.noConfusion
    settled := fun reached => by rcases reached with reached | reached <;> cases reached
    unstopped := fun _ => quietStops
    connecting := by
      intro _ index other place alive
      rcases getElem?_launch_cases place with before | ⟨last, launched⟩
      · exact (quiet.not_live before alive).elim
      · rw [last, launched]
        exact ⟨rfl, fresh⟩
    stopping := State.noConfusion
    joining := fun _ _ _ place phase =>
      (quietStops.not_live place (StopTask.live_of_joining phase)).elim
    closing := fun _ _ _ place phase =>
      (quietStops.not_live place (StopTask.live_of_closing phase)).elim }

/-- The session may change while no clean-up waits for its children. -/
theorem retarget {kept : Prop} (control : Control state connectingJob jobs stops released)
    (unclosed : ∀ (stop : Nat) task children, stops[stop]? = some task →
      task.phase = .closing children → kept) :
    Control state connectingJob jobs stops kept where
  soleJob := control.soleJob
  soleStop := control.soleStop
  idle := control.idle
  settled := control.settled
  unstopped := control.unstopped
  connecting := control.connecting
  stopping := control.stopping
  joining := control.joining
  closing := fun stop task children place phase =>
    ⟨(control.closing stop task children place phase).1,
      unclosed stop task children place phase⟩

end Control

/-! ## The values of the state -/

def statesOf (log : List Output) : List State :=
  log.filterMap (fun output =>
    match output with
    | .changed state _ => some state
    | _ => none)

inductive Follows : State → State → Prop where
  | start : Follows .stopped .connecting
  | refuse : Follows .stopped .stopping
  | connect : Follows .connecting .connected
  | abort : Follows .connecting .stopping
  | stop : Follows .connected .stopping
  | finish : Follows .stopping .stopped

/-- A service that may be stopped follows into `stopping`. -/
theorem Follows.to_stopping {state : State} (idle : state ≠ .idle)
    (free : state ≠ .stopping) : Follows state .stopping := by
  cases state with
  | idle => exact absurd rfl idle
  | stopping => exact absurd rfl free
  | stopped => exact .refuse
  | connecting => exact .abort
  | connected => exact .stop

structure Traced (state : State) (log : List Output) : Prop where
  chain : (State.stopped :: statesOf log).IsChain Follows
  last : (State.stopped :: statesOf log).getLast? = some state

namespace Traced

variable {state : State} {log : List Output}

theorem silent (traced : Traced state log) {output : Output}
    (quiet : statesOf [output] = []) : Traced state (log ++ [output]) := by
  have same : statesOf (log ++ [output]) = statesOf log := by
    rw [statesOf, List.filterMap_append, ← statesOf, ← statesOf, quiet, List.append_nil]
  exact ⟨by rw [same]; exact traced.chain, by rw [same]; exact traced.last⟩

theorem move (traced : Traced state log) {target : State} (follows : Follows state target)
    (msg : Option String) : Traced target (log ++ [.changed target msg]) := by
  have longer : State.stopped :: statesOf (log ++ [.changed target msg]) =
      (State.stopped :: statesOf log) ++ [target] := by
    rw [statesOf, List.filterMap_append]
    rfl
  constructor
  · rw [longer, List.isChain_append]
    refine ⟨traced.chain, List.isChain_singleton target, ?_⟩
    intro before isLast after isHead
    rw [traced.last] at isLast
    cases isLast
    cases isHead
    exact follows
  · rw [longer, List.getLast?_append]
    rfl

end Traced

end AlienConnection.Bg
