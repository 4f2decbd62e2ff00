import AlienConnection.Library.Handles
import AlienConnection.Ui.DataUtils
import AlienConnection.Ui.MainActivity

/-!
# The clock of a session

`startTime` launches a coroutine that belongs to no activity and keeps its job in the
activity that launched it. So the clock of a session is a task with one handle for each
activity, and the activities come and go while it runs.
-/

namespace AlienConnection.Ui

open Library Library.Handles

inductive TimeJob where
  /-- It has not run yet, and will set `selectTime`. -/
  | launched (time : Int)
  | ticking
  | cancelled
  deriving DecidableEq, Repr

def TimeJob.isActive : TimeJob → Bool
  | .launched _ | .ticking => true
  | .cancelled => false

structure Screen where
  activity : MainActivity
  /-- `onDestroy` has not run. -/
  alive : Bool := true
  timeJob : Option Nat := none

structure Phone where
  vvState : Bool := false
  /-- The activities in the order of their creation. -/
  screens : List Screen := []
  timeJobs : List TimeJob := []
  selectTime : Int
  data : DataUtils

namespace Phone

def startTime (index : Nat) (time : Int) (phone : Phone) : Phone :=
  { phone with
    timeJobs := phone.timeJobs ++ [.launched time]
    screens := phone.screens.modify index (fun screen =>
      { screen with timeJob := some phone.timeJobs.length }) }

def timeJob (index : Nat) (phone : Phone) : Option Nat :=
  phone.screens[index]?.bind Screen.timeJob

def stopTime (index : Nat) (phone : Phone) : Phone :=
  match phone.timeJob index with
  | none => phone
  | some job => { phone with timeJobs := phone.timeJobs.set job .cancelled }

def call (index : Nat) (millis : Int) (draw : Nat) (phone : Phone) : Option ActivityCall → Phone
  | some (.startTime picked) =>
      phone.startTime index
        (if picked = true ∧ 0 < phone.selectTime then phone.selectTime else millis)
  | some .stopTime => phone.stopTime index
  | some .startService => { phone with data := phone.data.addHisVpn millis draw }
  | some .stopService => phone
  | none => phone

/-- An activity that is not destroyed. After `onDestroy` the coroutines of an activity are
cancelled and the service does not call it. -/
def activity? (index : Nat) (phone : Phone) : Option MainActivity :=
  phone.screens[index]?.bind (fun screen =>
    if screen.alive then some { screen.activity with vvState := phone.vvState } else none)

def setActivity (index : Nat) (activity : MainActivity) (phone : Phone) : Phone :=
  { phone with
    vvState := activity.vvState
    screens := phone.screens.modify index (fun screen => { screen with activity := activity }) }

def tick (job : Nat) (millis : Int) (draw : Nat) (phone : Phone) : Phone :=
  match phone.timeJobs[job]? with
  | some (.launched time) =>
      { phone with selectTime := time, timeJobs := phone.timeJobs.set job .ticking }
  | some .ticking => { phone with data := phone.data.tick (millis - phone.selectTime) draw }
  | some .cancelled => phone
  | none => phone

inductive Event where
  | onCreate
  | onDestroy (index : Nat)
  | activity (index : Nat) (millis : Int) (draw : Nat) (event : MainActivity.Event)
  | tick (job : Nat) (millis : Int) (draw : Nat)
  | setNowVpn (vpn : HisBean)

def step (phone : Phone) : Event → Phone
  | .onCreate =>
      { phone with
        screens := phone.screens ++ [{ activity := MainActivity.created phone.vvState }] }
  | .onDestroy index =>
      { phone with screens := phone.screens.modify index (fun screen =>
          { screen with alive := false }) }
  | .activity index millis draw event =>
      match phone.activity? index with
      | none => phone
      | some activity =>
          (phone.setActivity index (activity.perform event).1).call index millis draw
            (activity.perform event).2
  | .tick job millis draw => phone.tick job millis draw
  | .setNowVpn vpn => { phone with data := { phone.data with nowVpn := some vpn } }

/-- The phone when the process starts. `selectTime` is the time of the start then. -/
def initial (selectTime : Int) (data : DataUtils) : Phone :=
  { selectTime := selectTime, data := data }

/-! ## The clock as a table of tasks -/

def table (phone : Phone) : Table Nat where
  live := phone.timeJobs.map TimeJob.isActive
  handle index := phone.timeJob index

def useOfCall (index : Nat) : ActivityCall → Option (Use Nat)
  | .startTime _ => some (.start index)
  | .stopTime => some (.stop index)
  | .startService => none
  | .stopService => none

def useOf (phone : Phone) : Event → Option (Use Nat)
  | .activity index _ _ event =>
      (phone.activity? index).bind (fun activity =>
        (activity.perform event).2.bind (useOfCall index))
  | _ => none

theorem timeJob_modify {phone next : Phone} {index : Nat} {change : Screen → Screen}
    (changed : next.screens = phone.screens.modify index change)
    (keeps : ∀ screen, (change screen).timeJob = screen.timeJob) (other : Nat) :
    next.timeJob other = phone.timeJob other := by
  rw [timeJob, timeJob, changed, List.getElem?_modify]
  cases phone.screens[other]? with
  | none => rfl
  | some screen =>
      by_cases same : index = other
      · simp [same, keeps]
      · simp [same]

theorem timeJob_startTime {phone : Phone} {index : Nat} {screen : Screen}
    (found : phone.screens[index]? = some screen) (time : Int) :
    (fun other => (phone.startTime index time).timeJob other) =
      Function.update (fun other => phone.timeJob other) index (some phone.timeJobs.length) := by
  funext other
  simp only [startTime, timeJob, List.getElem?_modify]
  by_cases same : other = index
  · subst same
    simp [found]
  · rw [Function.update_of_ne same]
    simp [Ne.symm same]

theorem table_eq {first second : Phone}
    (jobs : first.timeJobs.map TimeJob.isActive = second.timeJobs.map TimeJob.isActive)
    (handles : ∀ index, first.timeJob index = second.timeJob index) :
    first.table = second.table := by
  have same : (fun index => first.timeJob index) = fun index => second.timeJob index :=
    funext handles
  simp only [table, jobs, same]

theorem table_setActivity (index : Nat) (activity : MainActivity) (phone : Phone) :
    (phone.setActivity index activity).table = phone.table :=
  table_eq rfl (timeJob_modify rfl (fun _ => rfl))

theorem table_onCreate (phone : Phone) : (phone.step .onCreate).table = phone.table := by
  refine table_eq rfl (fun index => ?_)
  simp only [step, timeJob]
  rcases Nat.lt_trichotomy index phone.screens.length with before | rfl | after
  · rw [List.getElem?_append_left before]
  · simp
  · rw [List.getElem?_eq_none (by simp; omega), List.getElem?_eq_none (by omega)]

theorem table_tick (job : Nat) (millis : Int) (draw : Nat) (phone : Phone) :
    (phone.tick job millis draw).table = phone.table := by
  rw [tick]
  split
  next time found =>
    refine table_eq ?_ (fun _ => rfl)
    have active : (phone.timeJobs.map TimeJob.isActive)[job]? = some true := by
      rw [List.getElem?_map, found]
      rfl
    rw [List.map_set]
    apply List.ext_getElem?
    intro other
    by_cases same : job = other
    · subst same
      rw [List.getElem?_set_self (List.getElem?_eq_some_iff.mp active).1, active]
      rfl
    · rw [List.getElem?_set_ne same]
  all_goals rfl

/-- A call on behalf of an activity does to the table what its use does. -/
theorem table_call {phone : Phone} {index : Nat} {screen : Screen}
    (found : phone.screens[index]? = some screen) (millis : Int) (draw : Nat)
    (made : ActivityCall) :
    (phone.call index millis draw (some made)).table =
      match useOfCall index made with
      | none => phone.table
      | some use => phone.table.use use := by
  cases made with
  | startService => rfl
  | stopService => rfl
  | startTime picked =>
      simp only [call, useOfCall, Table.use, table]
      rw [timeJob_startTime found]
      simp [startTime, TimeJob.isActive]
  | stopTime =>
      simp only [call, useOfCall, Table.use, stopTime, table]
      cases phone.timeJob index with
      | none => rfl
      | some job =>
          simp only [List.map_set]
          rfl

theorem exists_screen_of_activity? {phone : Phone} {index : Nat} {activity : MainActivity}
    (alive : phone.activity? index = some activity) (next : MainActivity) :
    ∃ screen, (phone.setActivity index next).screens[index]? = some screen := by
  obtain ⟨screen, found, _⟩ := Option.bind_eq_some_iff.mp alive
  simp [setActivity, found]

/-- The phone changes its clocks only through the jobs of the activities. -/
theorem follows : Follows Phone.step table useOf where
  kept := by
    intro phone event unused
    cases event with
    | onCreate => exact table_onCreate phone
    | onDestroy index => exact table_eq rfl (timeJob_modify rfl (fun _ => rfl))
    | tick job millis draw => exact table_tick job millis draw phone
    | setNowVpn vpn => rfl
    | activity index millis draw event =>
        cases alive : phone.activity? index with
        | none => simp only [step, alive]
        | some activity =>
            simp only [step, alive]
            rw [← table_setActivity index (activity.perform event).1 phone]
            cases made : (activity.perform event).2 with
            | none => rfl
            | some call =>
                obtain ⟨screen, found⟩ :=
                  exists_screen_of_activity? alive (activity.perform event).1
                simp only [useOf, alive, made, Option.bind_some] at unused
                rw [table_call found, unused]
  used := by
    intro phone event use found
    cases event with
    | activity index millis draw event =>
        obtain ⟨activity, alive, made⟩ := Option.bind_eq_some_iff.mp found
        obtain ⟨call, made, used⟩ := Option.bind_eq_some_iff.mp made
        obtain ⟨screen, present⟩ := exists_screen_of_activity? alive (activity.perform event).1
        simp only [step, alive, made]
        rw [table_call present, used, table_setActivity]
    | _ => cases found

/-! ## What a tick changes -/

def Still (phone : Phone) : Prop :=
  ∀ ticks : List (Nat × Int × Nat),
    let later := Machine.run Phone.step phone
      (ticks.map (fun turn => .tick turn.1 turn.2.1 turn.2.2))
    later.data.endTime = phone.data.endTime ∧ later.data.hisVpn = phone.data.hisVpn

theorem live_iff (phone : Phone) (job : Nat) :
    phone.table.Live job ↔ ∃ found, phone.timeJobs[job]? = some found ∧ found.isActive = true := by
  rw [Table.Live, table, List.getElem?_map, Option.map_eq_some_iff]

theorem tick_of_quiet {phone : Phone} (quiet : phone.table.Quiet) (job : Nat) (millis : Int)
    (draw : Nat) : phone.tick job millis draw = phone := by
  have dead : ∀ found, phone.timeJobs[job]? = some found → found.isActive = false := by
    intro found present
    apply Bool.eq_false_of_not_eq_true
    intro active
    exact quiet job ((live_iff phone job).mpr ⟨found, present, active⟩)
  rw [tick]
  split
  next time launched => cases dead _ launched
  next ticking => cases dead _ ticking
  all_goals rfl

theorem still_of_quiet {phone : Phone} (quiet : phone.table.Quiet) : phone.Still := by
  intro ticks
  have same : Machine.run Phone.step phone
      (ticks.map (fun turn => .tick turn.1 turn.2.1 turn.2.2)) = phone := by
    induction ticks with
    | nil => rfl
    | cons turn ticks ih =>
        rw [List.map_cons, Machine.run, List.foldl_cons, step, tick_of_quiet quiet]
        exact ih
  exact ⟨congrArg (·.data.endTime) same, congrArg (·.data.hisVpn) same⟩

/-- Some time of the clock differs from any given text. -/
theorem exists_formatTime_ne (text : String) (start : Int) :
    ∃ millis, formatTime (millis - start) ≠ text := by
  by_cases zero : formatTime 0 = text
  · refine ⟨start + 1000, ?_⟩
    have second : start + 1000 - start = 1000 := by omega
    rw [← zero, second]
    decide
  · exact ⟨start, by rw [Int.sub_self]; exact zero⟩

theorem Still.not_ticking {phone : Phone} (still : phone.Still) (job : Nat) :
    phone.timeJobs[job]? ≠ some .ticking := by
  intro ticking
  obtain ⟨millis, differs⟩ := exists_formatTime_ne phone.data.endTime phone.selectTime
  have same := (still [(job, millis, 0)]).1
  apply differs
  simpa only [List.map_cons, List.map_nil, Machine.run, List.foldl_cons, List.foldl_nil, step, tick,
    ticking, DataUtils.endTime_tick] using same

theorem Still.tick {phone : Phone} (still : phone.Still) (job : Nat) (millis : Int)
    (draw : Nat) : (phone.tick job millis draw).Still := by
  have now := still [(job, millis, draw)]
  intro ticks
  have later := still ((job, millis, draw) :: ticks)
  exact ⟨later.1.trans now.1.symm, later.2.trans now.2.symm⟩

/-- A job that is active changes the time of the session at its second turn at the latest. -/
theorem quiet_of_still {phone : Phone} (still : phone.Still) : phone.table.Quiet := by
  intro job live
  obtain ⟨found, present, active⟩ := (live_iff phone job).mp live
  cases found with
  | launched time =>
      apply (still.tick job 0 0).not_ticking job
      simp only [Phone.tick, present]
      exact List.getElem?_set_self (List.getElem?_eq_some_iff.mp present).1
  | ticking => exact still.not_ticking job present
  | cancelled => cases active

/-! ## Whole runs -/

def Starts (phone : Phone) (event : Event) : Prop :=
  ∃ index, phone.useOf event = some (.start index)

def EndsSession (phone : Phone) (event : Event) : Prop :=
  ∃ index, phone.useOf event = some (.stop index)

/-- Throughout a run no two clocks are active, and after the end of a session no tick
changes anything until a clock is started. -/
structure ClockStops (start : Phone) (events : List Event) : Prop where
  single : ∀ first second, events = first ++ second →
    (Machine.run Phone.step start first).table.Single
  still : ∀ first event middle second, events = first ++ event :: (middle ++ second) →
    (Machine.run Phone.step start first).EndsSession event →
    (∀ before other after, middle = before ++ other :: after →
      ¬ (Machine.run Phone.step start (first ++ event :: before)).Starts other) →
    (Machine.run Phone.step start (first ++ event :: middle)).Still

/-- Starts and stops of the clock alternate: none is started while one runs, and the one
that runs is stopped by the activity that has started it. -/
def ClocksAlternate (start : Phone) (events : List Event) : Prop :=
  Alternates none (uses Phone.step useOf start events)

theorem not_mem_uses {phone : Phone} {events : List Event}
    (none : ∀ before other after, events = before ++ other :: after →
      ¬ (Machine.run Phone.step phone before).Starts other) (index : Nat) :
    Use.start index ∉ uses Phone.step useOf phone events := by
  induction events generalizing phone with
  | nil => exact List.not_mem_nil
  | cons event events ih =>
      rw [uses, List.mem_append]
      rintro (here | later)
      · exact none [] event events rfl ⟨index, Option.mem_toList.mp here⟩
      · refine ih ?_ later
        intro before other after split
        exact none (event :: before) other after (by rw [split]; rfl)

theorem clockStops_iff_tidy {start : Phone} (owned : Owned start.table none)
    (events : List Event) :
    ClockStops start events ↔
      Machine.Along Phone.step (TidyAfter Phone.step table useOf) start events := by
  constructor
  · intro stops first event second split use found
    have whole : events = (first ++ [event]) ++ second := by
      rw [split, List.append_assoc]
      rfl
    have ran := Machine.run_concat Phone.step start first event
    rw [← ran]
    cases use with
    | start index => exact stops.single _ second whole
    | stop index =>
        apply quiet_of_still
        refine stops.still first event [] second split ⟨index, found⟩ ?_
        intro before other after none
        cases before <;> cases none
  · intro tidy
    refine ⟨?_, ?_⟩
    · intro first second split
      obtain ⟨owner, owned⟩ := owned_of_tidy follows ⟨none, owned⟩ tidy split
      exact owned.single
    · rintro first event middle second split ⟨index, found⟩ unstarted
      apply still_of_quiet
      have stopped := tidy first event (middle ++ second) split (.stop index) found
      have whole : Machine.run Phone.step start (first ++ event :: middle) =
          Machine.run Phone.step ((Machine.run Phone.step start first).step event) middle :=
        Machine.run_append _ _ _ _
      rw [whole]
      refine quiet_of_no_start follows stopped (not_mem_uses ?_)
      intro before other after inside
      have earlier := unstarted before other after inside
      rwa [Machine.run_append] at earlier

/-- The clock of a session stops with it exactly if the starts and stops of the clock
alternate. -/
theorem clockStops_iff_alternate (selectTime : Int) (data : DataUtils) (events : List Event) :
    ClockStops (initial selectTime data) events ↔
      ClocksAlternate (initial selectTime data) events := by
  have owned : Owned (initial selectTime data).table none := by
    refine ⟨fun index job held => ?_, fun _ job live => ?_, fun owner some => ?_⟩
    · cases held
    · cases live
    · cases some
  exact (clockStops_iff_tidy owned events).trans (tidy_iff_alternates follows owned events)

/-- The activity is destroyed and created again while the connection is up. The second
activity finds the connection and starts a second clock, and when the session ends it stops
only its own. The first one goes on and changes the time of the session. -/
theorem not_clockStops_recreated :
    let events : List Event := [.onCreate, .activity 0 0 0 (.onServiceConnected .connected),
      .onDestroy 0, .onCreate, .activity 1 0 0 (.onServiceConnected .connected),
      .activity 1 0 0 (.stateChanged .stopped false), .activity 1 0 0 (.finishJob 0)]
    let start := initial 0 {}
    let last := Machine.run Phone.step start events
    (Machine.run Phone.step start (events.take 5)).timeJobs = [.launched 0, .launched 0] ∧
      last.timeJobs = [.launched 0, .cancelled] ∧
      (Machine.run Phone.step last [.tick 0 0 0, .tick 0 1000 0]).data.endTime = "00:00:01" ∧
      last.data.endTime = "00:00:00" ∧ ¬ ClockStops start events := by
  intro events start last
  refine ⟨rfl, rfl, by decide +kernel, rfl, ?_⟩
  intro stops
  have same := stops.single (events.take 5) (events.drop 5) rfl 0 1 rfl rfl
  cases same

end Phone

end AlienConnection.Ui
