import AlienConnection.Library.Machine
import Mathlib.Data.List.Induction

/-!
# Guarded processes

A guard keeps a process running. A thread for every process waits for its end and sends
the exit code through a channel without a buffer; the looper receives it on the main
thread. Sending hands the code over, but the looper goes on only when it is dispatched.
If it is cancelled in between, or the time of a clean-up receive is over, it does not
get the code, which is then lost. A receive that finds the sender waiting does not
suspend, and does not look at cancellation; one that suspends looks at it afterwards.
-/

namespace AlienConnection.Bg

open Library

/-- The receives of the clean-up: the timed one after `SIGTERM` on old platforms, the
timed one after `destroy` on new ones, and the last one. -/
inductive CleanUp where
  | terminated
  | destroyed
  | last
  deriving DecidableEq

/-- Where a looper stands. `restarting` is the way from the start of a process to the
receive, on which the restart callback runs; the callback may be suspended. -/
inductive LooperPhase where
  | restarting
  | suspended
  | receiving
  | handed
  | cleaning (receive : CleanUp)
  | cleaningHanded (receive : CleanUp)
  | done
  deriving DecidableEq

/-- A guard. The facts about the process concern the current one: whether it is alive,
whether its thread is there, whether its exit code has been taken from the channel,
whether the looper got that code, and whether it was destroyed. `late` records the
start of a process after `close`. -/
structure Guard where
  phase : LooperPhase := .restarting
  running : Bool := true
  cancelled : Bool := false
  alive : Bool := true
  reader : Bool := false
  taken : Bool := false
  delivered : Bool := false
  destroyed : Bool := false
  late : Bool := false
  deriving DecidableEq

/-- What follows an exit code: the process exited too fast, the restart failed, or the
process was restarted. -/
inductive AfterExit where
  | tooFast
  | startFails
  | restarted
  deriving DecidableEq

inductive GuardEvent where
  | exit
  | send
  | dispatch (next : AfterExit)
  | timeout
  | callbackSuspends
  | callbackResumes
  | callbackFails
  | callbackReturns (offered : Bool) (next : AfterExit)
  deriving DecidableEq

namespace Guard

variable (sdk : Nat)

def start (guard : Guard) : Guard :=
  { guard with
    phase := .restarting
    running := true
    alive := true
    reader := false
    taken := false
    delivered := false
    destroyed := false
    late := guard.late || guard.cancelled }

/-- The looper has an exit code. An exception finds nothing to clean up. -/
def received (guard : Guard) : AfterExit → Guard
  | .tooFast =>
      { guard with phase := .done, running := false, taken := true, delivered := true }
  | .startFails =>
      { guard with phase := .done, running := false, taken := true, delivered := true }
  | .restarted => guard.start

def destroy (guard : Guard) : Guard :=
  { guard with
    destroyed := true
    phase := .cleaning (if 26 ≤ sdk then .destroyed else .last) }

def cleanUp (guard : Guard) : Guard :=
  if guard.running then
    if sdk < 24 then { guard with phase := .cleaning .terminated } else guard.destroy sdk
  else { guard with phase := .done }

def expire (guard : Guard) : CleanUp → Guard
  | .terminated => guard.destroy sdk
  | .destroyed => { guard with phase := .cleaning .last }
  | .last => guard

def loop (guard : Guard) (offered : Bool) (next : AfterExit) : Guard :=
  let guard := { guard with reader := true }
  if offered && !guard.alive then guard.received next else { guard with phase := .receiving }

/-- The code of a process that has ended can be handed to a looper that waits. -/
def canSend (guard : Guard) : Bool := !guard.alive && guard.reader && !guard.taken

def handOver : LooperPhase → Option LooperPhase
  | .receiving => some .handed
  | .cleaning receive => some (.cleaningHanded receive)
  | _ => none

def step (guard : Guard) : GuardEvent → Guard
  | .exit => { guard with alive := false }
  | .send =>
      match handOver guard.phase with
      | none => guard
      | some phase => if guard.canSend then { guard with phase := phase, taken := true } else guard
  | .dispatch next =>
      match guard.phase with
      | .receiving => if guard.cancelled then guard.cleanUp sdk else guard
      | .handed => if guard.cancelled then guard.cleanUp sdk else guard.received next
      | .cleaningHanded _ => { guard with phase := .done, delivered := true }
      | _ => guard
  | .timeout =>
      match guard.phase with
      | .cleaning receive => guard.expire sdk receive
      | .cleaningHanded receive =>
          if receive = .last then guard else guard.expire sdk receive
      | _ => guard
  | .callbackSuspends =>
      if guard.phase = .restarting then
        if guard.cancelled then guard.cleanUp sdk else { guard with phase := .suspended }
      else guard
  | .callbackResumes =>
      if guard.phase = .suspended then { guard with phase := .restarting } else guard
  | .callbackFails =>
      if guard.phase = .restarting then guard.cleanUp sdk else guard
  | .callbackReturns offered next =>
      if guard.phase = .restarting then guard.loop offered next else guard

/-- Cancellation. A receive in the loop and a suspended callback end with an exception;
the clean-up cannot be cancelled. -/
def cancel (guard : Guard) : Guard :=
  match guard.phase with
  | .receiving => { guard with cancelled := true }.cleanUp sdk
  | .suspended => { guard with cancelled := true }.cleanUp sdk
  | _ => { guard with cancelled := true }

end Guard

/-! ## Pools -/

inductive PoolEvent where
  | start
  | guard (index : Nat) (event : GuardEvent)
  | close
  deriving DecidableEq

structure GuardedProcessPool where
  guards : List Guard := []
  closed : Bool := false

namespace GuardedProcessPool

variable (sdk : Nat)

/-- A pool that is closed is given up, and starts no guards. -/
def step (pool : GuardedProcessPool) : PoolEvent → GuardedProcessPool
  | .start => if pool.closed then pool else { pool with guards := pool.guards ++ [{}] }
  | .guard index event =>
      { pool with
        guards := pool.guards.mapIdx (fun place guard =>
          if place = index then guard.step sdk event else guard) }
  | .close => { guards := pool.guards.map (Guard.cancel sdk), closed := true }

def run (events : List PoolEvent) : GuardedProcessPool := Machine.run (step sdk) {} events

/-- A fact about all guards of a pool, kept by whatever happens to one of them. -/
theorem forall_step {Holds : Guard → Prop} {pool : GuardedProcessPool} {event : PoolEvent}
    (all : ∀ guard ∈ pool.guards, Holds guard) (start : Holds {})
    (stepped : ∀ index guardEvent guard, event = .guard index guardEvent →
      pool.guards[index]? = some guard → Holds (guard.step sdk guardEvent))
    (closed : event = .close → ∀ guard ∈ pool.guards, Holds (guard.cancel sdk)) :
    ∀ guard ∈ (pool.step sdk event).guards, Holds guard := by
  intro guard member
  cases event with
  | start =>
      rw [step] at member
      split at member
      · exact all guard member
      · rcases List.mem_append.mp member with old | new
        · exact all guard old
        · rw [List.mem_singleton.mp new]
          exact start
  | guard index guardEvent =>
      obtain ⟨place, inside, same⟩ := List.mem_mapIdx.mp member
      split at same
      next here =>
        rw [← same]
        apply stepped index guardEvent _ rfl
        rw [← here]
        exact List.getElem?_eq_getElem inside
      next =>
        rw [← same]
        exact all _ (List.getElem_mem inside)
  | close =>
      obtain ⟨old, oldMember, same⟩ := List.mem_map.mp member
      rw [← same]
      exact closed rfl old oldMember

end GuardedProcessPool

end AlienConnection.Bg
