import AlienConnection.Bg.GuardedProcessPool

/-!
# What guards keep

Whatever happens, a looper that is not at its end has a process to clean up, a code
that was handed over is taken, and a looper at its end has got the code of its last
process or has destroyed it. The exit code of a process is lost exactly when a looper
is cancelled, or the time of its receive is over, between hand-over and dispatch; and a
process is started after `close` only if `close` was called on the way from the start of
a process to the receive.
-/

namespace AlienConnection.Bg

open Library

namespace Guard

def holdsCode : LooperPhase → Bool
  | .handed => true
  | .cleaningHanded _ => true
  | _ => false

/-- The looper is on its way from the start of a process to the receive. -/
def starting : LooperPhase → Bool
  | .restarting => true
  | .suspended => true
  | _ => false

def Waits (guard : Guard) : Prop := (handOver guard.phase).isSome

def Loses (guard : Guard) : GuardEvent → Prop
  | .dispatch _ => guard.phase = .handed ∧ guard.cancelled = true
  | .timeout => ∃ receive, receive ≠ .last ∧ guard.phase = .cleaningHanded receive
  | _ => False

/-- If the looper waits, the process is alive or its code has not been taken. -/
def Hopeful (guard : Guard) : Prop :=
  guard.Waits → guard.alive = true ∨ guard.taken = false

structure Regular (guard : Guard) : Prop where
  running : guard.phase ≠ .done → guard.running = true
  held : holdsCode guard.phase = true → guard.taken = true ∧ guard.alive = false
  ended : guard.phase = .done → guard.delivered = true ∨ guard.destroyed = true

/-! ## Steps -/

inductive Moves (guard : Guard) (event : GuardEvent) : Guard → Prop where
  | stays : Moves guard event guard
  | exits : Moves guard event { guard with alive := false }
  | hands (phase : LooperPhase) (waits : handOver guard.phase = some phase)
      (dead : guard.alive = false) :
      Moves guard event { guard with phase := phase, taken := true }
  | receives (next : AfterExit) (reader : Bool)
      (ready : (guard.phase = .handed ∧ guard.cancelled = false) ∨ guard.phase = .restarting) :
      Moves guard event ({ guard with reader := reader }.received next)
  | cleans (receive : CleanUp) (destroyed reader : Bool)
      (before : starting guard.phase = true ∨ guard.phase = .receiving ∨
        ∃ other, guard.phase = .cleaning other) :
      Moves guard event
        { guard with phase := .cleaning receive, destroyed := destroyed, reader := reader }
  | loses (receive : CleanUp) (destroyed : Bool) (lost : guard.Loses event) :
      Moves guard event { guard with phase := .cleaning receive, destroyed := destroyed }
  | delivers (receive : CleanUp) (handed : guard.phase = .cleaningHanded receive) :
      Moves guard event { guard with phase := .done, delivered := true }
  | goes (phase : LooperPhase) (reader : Bool) (before : starting guard.phase = true)
      (after : phase = .receiving ∨ starting phase = true) :
      Moves guard event { guard with phase := phase, reader := reader }

variable {sdk : Nat} {guard next : Guard} {event : GuardEvent}

theorem handOver_cases {phase after : LooperPhase} (waits : handOver phase = some after) :
    (phase = .receiving ∧ after = .handed) ∨
      ∃ receive, phase = .cleaning receive ∧ after = .cleaningHanded receive := by
  cases phase with
  | receiving =>
      cases waits
      exact Or.inl ⟨rfl, rfl⟩
  | cleaning receive =>
      cases waits
      exact Or.inr ⟨receive, rfl, rfl⟩
  | _ => cases waits

/-- The clean-up of a process that runs waits for its code. -/
theorem cleanUp_cases (sdk : Nat) (running : guard.running = true) :
    ∃ receive destroyed, guard.cleanUp sdk =
      { guard with phase := .cleaning receive, destroyed := destroyed } := by
  rw [cleanUp, if_pos running]
  split
  · exact ⟨_, guard.destroyed, rfl⟩
  · exact ⟨_, true, rfl⟩

theorem expire_cases (sdk : Nat) (guard : Guard) {receive : CleanUp} (timed : receive ≠ .last) :
    ∃ next destroyed, guard.expire sdk receive =
      { guard with phase := .cleaning next, destroyed := destroyed } := by
  cases receive with
  | terminated => exact ⟨_, true, rfl⟩
  | destroyed => exact ⟨_, guard.destroyed, rfl⟩
  | last => exact absurd rfl timed

theorem moves_cleanUp (running : guard.running = true)
    (before : guard.phase = .restarting ∨ guard.phase = .receiving) :
    guard.Moves event (guard.cleanUp sdk) := by
  obtain ⟨receive, destroyed, same⟩ := cleanUp_cases sdk running
  rw [same]
  refine .cleans receive destroyed guard.reader ?_
  rcases before with restarting | receiving
  · exact Or.inl (by rw [restarting]; rfl)
  · exact Or.inr (Or.inl receiving)

theorem moves_loop (restarting : guard.phase = .restarting) (offered : Bool) (after : AfterExit) :
    guard.Moves event (guard.loop offered after) := by
  rw [loop]
  dsimp only
  split
  · exact .receives after true (Or.inr restarting)
  · exact .goes .receiving true (by rw [restarting]; rfl) (Or.inl rfl)

theorem moves_step (regular : guard.Regular) (event : GuardEvent) :
    guard.Moves event (guard.step sdk event) := by
  have going := regular.running
  cases event with
  | exit => exact .exits
  | send =>
      rw [Guard.step]
      split
      · exact .stays
      next phase waits =>
        split
        next sendable =>
          refine .hands phase waits ?_
          simp only [canSend, Bool.and_eq_true, Bool.not_eq_true'] at sendable
          exact sendable.1.1
        next => exact .stays
  | dispatch after =>
      rw [Guard.step]
      split
      next phase =>
        split
        · exact moves_cleanUp (going (by simp [phase])) (Or.inr phase)
        · exact .stays
      next phase =>
        split
        next cancelled =>
          obtain ⟨receive, destroyed, same⟩ := cleanUp_cases sdk (going (by simp [phase]))
          rw [same]
          exact .loses receive destroyed ⟨phase, cancelled⟩
        next uncancelled =>
          exact .receives after guard.reader (Or.inl ⟨phase, Bool.eq_false_iff.mpr uncancelled⟩)
      next receive phase => exact .delivers receive phase
      next => exact .stays
  | timeout =>
      rw [Guard.step]
      split
      next receive phase =>
        by_cases timed : receive = .last
        · rw [timed]
          exact .stays
        · obtain ⟨next, destroyed, same⟩ := expire_cases sdk guard timed
          rw [same]
          exact .cleans next destroyed guard.reader (Or.inr (Or.inr ⟨receive, phase⟩))
      next receive phase =>
        split
        next => exact .stays
        next timed =>
          obtain ⟨next, destroyed, same⟩ := expire_cases sdk guard timed
          rw [same]
          exact .loses next destroyed ⟨receive, timed, phase⟩
      next => exact .stays
  | callbackSuspends =>
      rw [Guard.step]
      split
      next phase =>
        split
        · exact moves_cleanUp (going (by simp [phase])) (Or.inl phase)
        · exact .goes .suspended guard.reader (by rw [phase]; rfl) (Or.inr rfl)
      next => exact .stays
  | callbackResumes =>
      rw [Guard.step]
      split
      next phase => exact .goes .restarting guard.reader (by rw [phase]; rfl) (Or.inr rfl)
      next => exact .stays
  | callbackFails =>
      rw [Guard.step]
      split
      next phase => exact moves_cleanUp (going (by simp [phase])) (Or.inl phase)
      next => exact .stays
  | callbackReturns offered after =>
      rw [Guard.step]
      split
      next phase => exact moves_loop phase offered after
      next => exact .stays

/-- What cancellation can do. -/
theorem cancel_cases (sdk : Nat) (regular : guard.Regular) :
    (guard.phase ≠ .suspended ∧ guard.cancel sdk = { guard with cancelled := true }) ∨
      ((guard.phase = .receiving ∨ guard.phase = .suspended) ∧
        ∃ receive destroyed, guard.cancel sdk = { guard with
          cancelled := true, phase := .cleaning receive, destroyed := destroyed }) := by
  have cleaned : guard.phase ≠ .done → ∃ receive destroyed,
      { guard with cancelled := true }.cleanUp sdk = { guard with
        cancelled := true, phase := .cleaning receive, destroyed := destroyed } := by
    intro going
    have running : { guard with cancelled := true }.running = true := regular.running going
    exact cleanUp_cases sdk running
  rw [Guard.cancel]
  split
  next phase => exact Or.inr ⟨Or.inl phase, cleaned (by simp [phase])⟩
  next phase => exact Or.inr ⟨Or.inr phase, cleaned (by simp [phase])⟩
  next _ suspended => exact Or.inl ⟨suspended, rfl⟩

/-! ## Regular guards -/

theorem regular_launch : Regular {} :=
  ⟨fun _ => rfl, fun held => (nomatch held), fun ended => (nomatch ended)⟩

/-- A looper in a phase where nothing is handed over and nothing has ended. -/
theorem regular_of_running (running : guard.running = true)
    (nothing : holdsCode guard.phase = false) (going : guard.phase ≠ .done) : guard.Regular := by
  refine ⟨fun _ => running, fun held => ?_, fun ended => absurd ended going⟩
  rw [nothing] at held
  cases held

theorem going_of_starting {phase : LooperPhase} (before : starting phase = true) :
    phase ≠ .done := by
  rintro rfl
  cases before

/-- Every event keeps a guard regular. -/
theorem Regular.moves (regular : guard.Regular) (moves : guard.Moves event next) :
    next.Regular := by
  cases moves with
  | stays => exact regular
  | exits => exact ⟨regular.running, fun held => ⟨(regular.held held).1, rfl⟩, regular.ended⟩
  | hands phase waits dead =>
      have going : guard.phase ≠ .done ∧ phase ≠ .done := by
        rcases handOver_cases waits with ⟨before, after⟩ | ⟨receive, before, after⟩
        · simp [before, after]
        · simp [before, after]
      exact ⟨fun _ => regular.running going.1, fun _ => ⟨rfl, dead⟩,
        fun ended => absurd ended going.2⟩
  | receives after reader ready =>
      cases after with
      | tooFast =>
          exact ⟨fun going => absurd rfl going, fun held => (nomatch held), fun _ => Or.inl rfl⟩
      | startFails =>
          exact ⟨fun going => absurd rfl going, fun held => (nomatch held), fun _ => Or.inl rfl⟩
      | restarted => exact regular_of_running rfl rfl (fun ended => nomatch ended)
  | cleans receive destroyed reader before =>
      have going : guard.phase ≠ .done := by
        rcases before with before | phase | ⟨other, phase⟩
        · exact going_of_starting before
        · simp [phase]
        · simp [phase]
      exact regular_of_running (regular.running going) rfl (fun ended => nomatch ended)
  | loses receive destroyed lost =>
      have going : guard.phase ≠ .done := by
        cases event with
        | dispatch after => simp [lost.1]
        | timeout =>
            obtain ⟨other, _, phase⟩ := lost
            simp [phase]
        | _ => exact lost.elim
      exact regular_of_running (regular.running going) rfl (fun ended => nomatch ended)
  | delivers receive handed =>
      exact ⟨fun going => absurd rfl going, fun held => (nomatch held), fun _ => Or.inl rfl⟩
  | goes phase reader before after =>
      have running := regular.running (going_of_starting before)
      refine regular_of_running running ?_ ?_
      · rcases after with rfl | after
        · rfl
        · cases phase <;> first | rfl | cases after
      · rcases after with rfl | after
        · exact fun ended => nomatch ended
        · exact going_of_starting after

theorem Regular.step (regular : guard.Regular) (event : GuardEvent) :
    (guard.step sdk event).Regular :=
  regular.moves (moves_step regular event)

theorem Regular.cancel (regular : guard.Regular) : (guard.cancel sdk).Regular := by
  rcases cancel_cases sdk regular with ⟨_, same⟩ | ⟨before, receive, destroyed, same⟩
  · rw [same]
    exact ⟨regular.running, regular.held, regular.ended⟩
  · have going : guard.phase ≠ .done := by
      rcases before with phase | phase <;> simp [phase]
    rw [same]
    exact regular_of_running (regular.running going) rfl (fun ended => nomatch ended)

/-! ## Lost codes -/

/-- Unless a code is on its way or the looper is done, no code has been taken. -/
def Unspent (guard : Guard) : Prop :=
  holdsCode guard.phase = false → guard.phase ≠ .done → guard.taken = false

theorem Unspent.hopeful (unspent : guard.Unspent) : guard.Hopeful := by
  intro waits
  obtain ⟨after, handed⟩ := Option.isSome_iff_exists.mp waits
  rcases handOver_cases handed with ⟨phase, _⟩ | ⟨receive, phase, _⟩
  · exact Or.inr (unspent (by rw [phase]; rfl) (by simp [phase]))
  · exact Or.inr (unspent (by rw [phase]; rfl) (by simp [phase]))

theorem Unspent.of_starting (unspent : guard.Unspent) (before : starting guard.phase = true) :
    guard.taken = false := by
  refine unspent ?_ (going_of_starting before)
  cases phase : guard.phase <;> rw [phase] at before <;> first | rfl | cases before

/-- As long as no code is lost, a looper that waits has something to wait for. -/
theorem Unspent.moves (unspent : guard.Unspent) (moves : guard.Moves event next)
    (keeps : ¬ guard.Loses event) : next.Unspent := by
  cases moves with
  | stays => exact unspent
  | exits => exact unspent
  | hands phase waits dead =>
      intro nothing
      rcases handOver_cases waits with ⟨_, rfl⟩ | ⟨_, _, rfl⟩
      · cases nothing
      · cases nothing
  | receives after reader ready =>
      cases after with
      | tooFast => exact fun _ going => absurd rfl going
      | startFails => exact fun _ going => absurd rfl going
      | restarted => exact fun _ _ => rfl
  | cleans receive destroyed reader before =>
      rcases before with before | phase | ⟨other, phase⟩
      · exact fun _ _ => unspent.of_starting before
      · exact fun _ _ => unspent (by rw [phase]; rfl) (by simp [phase])
      · exact fun _ _ => unspent (by rw [phase]; rfl) (by simp [phase])
  | loses receive destroyed lost => exact absurd lost keeps
  | delivers receive handed => exact fun _ going => absurd rfl going
  | goes phase reader before after => exact fun _ _ => unspent.of_starting before

theorem Unspent.cancel (unspent : guard.Unspent) (regular : guard.Regular) :
    (guard.cancel sdk).Unspent := by
  rcases cancel_cases sdk regular with ⟨_, same⟩ | ⟨before, receive, destroyed, same⟩
  · rw [same]
    exact unspent
  · rw [same]
    rcases before with phase | phase
    · exact fun _ _ => unspent (by rw [phase]; rfl) (by simp [phase])
    · exact fun _ _ => unspent (by rw [phase]; rfl) (by simp [phase])

theorem not_hopeful_cleaning (taken : guard.taken = true) (dead : guard.alive = false)
    (receive : CleanUp) (destroyed : Bool) :
    ¬ Hopeful { guard with phase := .cleaning receive, destroyed := destroyed } := by
  intro hopeful
  rcases hopeful rfl with alive | fresh
  · rw [dead] at alive
    cases alive
  · rw [taken] at fresh
    cases fresh

/-- A looper that has lost a code waits for it. -/
theorem not_hopeful_of_loses (sdk : Nat) (regular : guard.Regular) (loses : guard.Loses event) :
    ¬ (guard.step sdk event).Hopeful := by
  cases event with
  | dispatch after =>
      obtain ⟨phase, cancelled⟩ := loses
      obtain ⟨taken, dead⟩ := regular.held (by rw [phase]; rfl)
      obtain ⟨receive, destroyed, same⟩ := cleanUp_cases sdk (regular.running (by simp [phase]))
      have stepped : guard.step sdk (.dispatch after) = guard.cleanUp sdk := by
        simp only [Guard.step, phase, cancelled, if_pos]
      rw [stepped, same]
      exact not_hopeful_cleaning taken dead receive destroyed
  | timeout =>
      obtain ⟨receive, timed, phase⟩ := loses
      obtain ⟨taken, dead⟩ := regular.held (by rw [phase]; rfl)
      obtain ⟨next, destroyed, same⟩ := expire_cases sdk guard timed
      have stepped : guard.step sdk .timeout = guard.expire sdk receive := by
        simp only [Guard.step, phase, if_neg timed]
      rw [stepped, same]
      exact not_hopeful_cleaning taken dead next destroyed
  | _ => exact loses.elim

/-! ## Late starts -/

/-- No process was started after `close`, and before the receive the looper is not
cancelled. -/
structure Prompt (guard : Guard) : Prop where
  early : guard.late = false
  uncancelled : starting guard.phase = true → guard.cancelled = false

theorem prompt_of_phase (early : guard.late = false) (phase : starting guard.phase = false) :
    guard.Prompt := by
  refine ⟨early, fun before => ?_⟩
  rw [phase] at before
  cases before

/-- Nothing but `close` makes a start late. -/
theorem Prompt.moves (prompt : guard.Prompt) (moves : guard.Moves event next) : next.Prompt := by
  have early := prompt.early
  cases moves with
  | stays => exact prompt
  | exits => exact ⟨early, prompt.uncancelled⟩
  | hands phase waits dead =>
      rcases handOver_cases waits with ⟨_, rfl⟩ | ⟨_, _, rfl⟩
      · exact prompt_of_phase early rfl
      · exact prompt_of_phase early rfl
  | receives after reader ready =>
      have uncancelled : guard.cancelled = false := by
        rcases ready with ⟨_, uncancelled⟩ | phase
        · exact uncancelled
        · exact prompt.uncancelled (by rw [phase]; rfl)
      cases after with
      | tooFast => exact prompt_of_phase early rfl
      | startFails => exact prompt_of_phase early rfl
      | restarted =>
          refine ⟨?_, fun _ => uncancelled⟩
          change (guard.late || guard.cancelled) = false
          rw [early, uncancelled]
          rfl
  | cleans receive destroyed reader before => exact prompt_of_phase early rfl
  | loses receive destroyed lost => exact prompt_of_phase early rfl
  | delivers receive handed => exact prompt_of_phase early rfl
  | goes phase reader before after => exact ⟨early, fun _ => prompt.uncancelled before⟩

theorem Prompt.cancel (prompt : guard.Prompt) (regular : guard.Regular)
    (outside : guard.phase ≠ .restarting) : (guard.cancel sdk).Prompt := by
  rcases cancel_cases sdk regular with ⟨suspended, same⟩ | ⟨_, receive, destroyed, same⟩
  · rw [same]
    refine prompt_of_phase prompt.early ?_
    change starting guard.phase = false
    cases phase : guard.phase with
    | restarting => exact absurd phase outside
    | suspended => exact absurd phase suspended
    | _ => rfl
  · rw [same]
    exact prompt_of_phase prompt.early rfl

end Guard

/-! ## Pools -/

namespace GuardedProcessPool

variable {sdk : Nat} {events : List PoolEvent}

def KeepsCodes (pool : GuardedProcessPool) (event : PoolEvent) : Prop :=
  ∀ index guardEvent guard, event = .guard index guardEvent →
    pool.guards[index]? = some guard → ¬ guard.Loses guardEvent

/-- `close` is not called between the start of a process and the receive of its guard,
as by the restart callback itself. -/
def ClosesOutside (pool : GuardedProcessPool) (event : PoolEvent) : Prop :=
  event = .close → ∀ guard ∈ pool.guards, guard.phase ≠ .restarting

instance (pool : GuardedProcessPool) (event : PoolEvent) : Decidable (ClosesOutside pool event) :=
  inferInstanceAs (Decidable (_ → _))

theorem regular_step {pool : GuardedProcessPool} (regular : ∀ guard ∈ pool.guards, guard.Regular)
    (event : PoolEvent) : ∀ guard ∈ (pool.step sdk event).guards, guard.Regular := by
  apply forall_step sdk regular Guard.regular_launch
  · intro index guardEvent guard _ found
    exact (regular guard (List.mem_of_getElem? found)).step guardEvent
  · intro _ guard member
    exact (regular guard member).cancel

theorem regular_run (sdk : Nat) (events : List PoolEvent) :
    ∀ guard ∈ (run sdk events).guards, guard.Regular := by
  have start : ∀ guard ∈ ({} : GuardedProcessPool).guards, guard.Regular :=
    fun _ none => absurd none List.not_mem_nil
  have kept : ∀ (pool : GuardedProcessPool) event, (∀ guard ∈ pool.guards, guard.Regular) →
      ∀ guard ∈ (pool.step sdk event).guards, guard.Regular :=
    fun _ event regular => regular_step regular event
  exact Machine.run_invariant kept start events

/-- Every looper that waits has something to wait for exactly if no looper is cancelled,
and no time of a receive is over, between the hand-over of a code and its dispatch. -/
theorem hopeful_iff (sdk : Nat) (events : List PoolEvent) :
    (∀ first second, events = first ++ second →
        ∀ guard ∈ (run sdk first).guards, guard.Hopeful) ↔
      Machine.Along (step sdk) KeepsCodes {} events := by
  constructor
  · rintro hopeful first _ second split index guardEvent guard rfl found loses
    have regular := regular_run sdk first guard (List.mem_of_getElem? found)
    apply Guard.not_hopeful_of_loses sdk regular loses
    have whole : events = first ++ [.guard index guardEvent] ++ second := by
      rw [split, List.append_assoc]
      rfl
    apply hopeful _ second whole
    rw [run, Machine.run_concat]
    refine List.mem_mapIdx.mpr ⟨index, (List.getElem?_eq_some_iff.mp found).1, ?_⟩
    rw [(List.getElem?_eq_some_iff.mp found).2]
    exact if_pos rfl
  · intro along first second split
    have kept : ∀ guard ∈ (run sdk first).guards, guard.Regular ∧ guard.Unspent := by
      refine Machine.along_invariant (fun pool : GuardedProcessPool =>
        ∀ guard ∈ pool.guards, guard.Regular ∧ guard.Unspent) ?_ ?_ along split
      · intro pool event all keeps
        refine forall_step sdk all ⟨Guard.regular_launch, fun _ _ => rfl⟩ ?_ ?_
        · intro index guardEvent guard same found
          obtain ⟨regular, unspent⟩ := all guard (List.mem_of_getElem? found)
          exact ⟨regular.step guardEvent, unspent.moves (Guard.moves_step regular guardEvent)
            (keeps index guardEvent guard same found)⟩
        · intro _ guard member
          obtain ⟨regular, unspent⟩ := all guard member
          exact ⟨regular.cancel, unspent.cancel regular⟩
      · exact fun _ none => absurd none List.not_mem_nil
    exact fun guard member => (kept guard member).2.hopeful

/-- A guard is closed while the exit code of its process has been handed over. The code
is lost, and the clean-up waits for it. -/
theorem not_hopeful_close :
    let events : List PoolEvent :=
      [.start, .guard 0 (.callbackReturns false .tooFast), .guard 0 .exit, .guard 0 .send, .close,
        .guard 0 (.dispatch .tooFast), .guard 0 .timeout]
    ∃ guard ∈ (run 30 events).guards, guard.phase = .cleaning .last ∧ ¬ guard.Hopeful := by
  refine ⟨_, List.mem_singleton.mpr rfl, rfl, ?_⟩
  intro hopeful
  rcases hopeful rfl with alive | fresh
  · cases alive
  · cases fresh

/-- If `close` is not called from a restart callback, no process is started after it. In
every run, each looper at its end has got the exit code of its last process or has
destroyed that process. -/
theorem no_process_outlives (sdk : Nat) (events : List PoolEvent) :
    (Machine.Along (step sdk) ClosesOutside {} events → ∀ first second, events = first ++ second →
      ∀ guard ∈ (run sdk first).guards, guard.late = false) ∧
    ∀ guard ∈ (run sdk events).guards, guard.phase = .done →
      guard.delivered = true ∨ guard.destroyed = true := by
  refine ⟨fun outside first second split guard member => ?_, fun guard member =>
    (regular_run sdk events guard member).ended⟩
  have kept : ∀ guard ∈ (run sdk first).guards, guard.Regular ∧ guard.Prompt := by
    refine Machine.along_invariant (fun pool : GuardedProcessPool =>
      ∀ guard ∈ pool.guards, guard.Regular ∧ guard.Prompt) ?_ ?_ outside split
    · intro pool event all outside
      refine forall_step sdk all ⟨Guard.regular_launch, rfl, fun _ => rfl⟩ ?_ ?_
      · intro index guardEvent guard _ found
        obtain ⟨regular, prompt⟩ := all guard (List.mem_of_getElem? found)
        exact ⟨regular.step guardEvent, prompt.moves (Guard.moves_step regular guardEvent)⟩
      · intro close guard member
        obtain ⟨regular, prompt⟩ := all guard member
        exact ⟨regular.cancel, prompt.cancel regular (outside close guard member)⟩
    · exact fun _ none => absurd none List.not_mem_nil
  exact (kept guard member).2.early

def sampleEvents : List PoolEvent :=
  [.start, .guard 0 (.callbackReturns false .tooFast), .start,
    .guard 1 (.callbackReturns false .tooFast), .guard 0 .exit, .guard 0 .send,
    .guard 0 (.dispatch .restarted), .guard 0 (.callbackReturns false .tooFast),
    .guard 1 .exit, .guard 1 .send, .guard 1 (.dispatch .tooFast), .close, .guard 0 .exit,
    .guard 0 .send, .guard 0 (.dispatch .tooFast)]

theorem no_process_outlives_sample :
    Machine.Along (step 30) ClosesOutside {} sampleEvents ∧
      ∀ guard ∈ (run 30 sampleEvents).guards, guard.late = false ∧
        (guard.phase = .done → guard.delivered = true ∨ guard.destroyed = true) := by
  have outside : Machine.Along (step 30) ClosesOutside {} sampleEvents := by decide
  obtain ⟨early, ended⟩ := no_process_outlives 30 sampleEvents
  exact ⟨outside, fun guard member =>
    ⟨early outside sampleEvents [] (List.append_nil _).symm guard member, ended guard member⟩⟩

/-- A restart callback calls `close` and returns. The new process has already ended and
its code is waiting, and a second passes before the looper looks at the clock: it starts
another process. -/
theorem late_start_in_callback :
    let events : List PoolEvent :=
      [.start, .guard 0 (.callbackReturns false .tooFast), .guard 0 .exit, .guard 0 .send,
        .guard 0 (.dispatch .restarted), .guard 0 .exit, .close,
        .guard 0 (.callbackReturns true .restarted)]
    ∃ guard ∈ (run 30 events).guards, guard.late = true ∧ guard.alive = true :=
  ⟨_, List.mem_singleton.mpr rfl, rfl, rfl⟩

end GuardedProcessPool

end AlienConnection.Bg
