import AlienConnection.Library.Settling
import AlienConnection.Ui.MainActivity

/-!
# The state that the home screen settles on

With no click and no coroutine left, the home screen should show whether the connection is
up. `Sound` says in terms of one state when it will, whatever order its coroutines are
resumed in. Each event of the outside then has an exact condition under which it keeps
`Sound`.
-/

namespace AlienConnection.Ui.MainActivity

open Library Library.Settling

structure Rests (activity : MainActivity) : Prop where
  click : activity.nowClickState = .idle
  connectJob : activity.connectJob = none
  adJobs : activity.adJobs = []
  finishJobs : activity.finishJobs = []

def right (activity : MainActivity) : ShowState :=
  if activity.vvState then .connected else .stopped

def ShowsRight (activity : MainActivity) : Prop := activity.showVpnState = activity.right

/-- The events that resume a coroutine or close an advertisement. -/
def Event.Own : Event → Prop
  | .connectJob _ | .adJob _ _ | .finishJob _ => True
  | _ => False

def SettlesRight (activity : MainActivity) : Prop :=
  Settles MainActivity.step Event.Own Rests ShowsRight activity

/-! ## What a sound state is -/

def AllEnd (state : ShowState) (activity : MainActivity) : Prop :=
  ∀ job ∈ activity.finishJobs, job.kind.shows = state

def Launched (activity : MainActivity) : Prop :=
  ∃ job ∈ activity.finishJobs, job.sleeping = false

/-- `nowClickState` is 1, or a coroutine will set it to 1 on its own: one that has not run
yet, or one that an advertisement launches. -/
def Returns (activity : MainActivity) : Prop :=
  activity.nowClickState = .idle ∨ activity.Launched ∨
    activity.nowClickState = .connecting ∧ activity.adJobs ≠ []

structure Sound (activity : MainActivity) : Prop where
  shows : activity.nowClickState = .idle → activity.finishJobs = [] → activity.ShowsRight
  up : activity.nowClickState = .connecting → activity.adJobs ≠ [] → activity.vvState = true
  ends : activity.Returns → activity.AllEnd activity.right

theorem Sound.showsRight {activity : MainActivity} (sound : activity.Sound)
    (rests : activity.Rests) : activity.ShowsRight :=
  sound.shows rests.click rests.finishJobs

theorem right_eq_connected_iff (activity : MainActivity) :
    activity.right = .connected ↔ activity.vvState = true := by
  rw [right]
  cases activity.vvState <;> simp

theorem right_eq_stopped_iff (activity : MainActivity) :
    activity.right = .stopped ↔ activity.vvState = false := by
  rw [right]
  cases activity.vvState <;> simp

theorem allEnd_launch_iff (kind : FinishKind) (state : ShowState) (activity : MainActivity) :
    (activity.launch kind).AllEnd state ↔ activity.AllEnd state ∧ kind.shows = state := by
  simp only [AllEnd, launch, List.forall_mem_append, List.forall_mem_singleton]

theorem launched_launch (kind : FinishKind) (activity : MainActivity) :
    (activity.launch kind).Launched :=
  ⟨{ kind := kind }, List.mem_append_right _ (List.mem_singleton.mpr rfl), rfl⟩

theorem launch_finishJobs_ne_nil (kind : FinishKind) (activity : MainActivity) :
    (activity.launch kind).finishJobs ≠ [] := by
  simp [launch]

/-! ## What the functions of the screen do -/

theorem showFinishAd_cases (activity : MainActivity) :
    activity.nowClickState = .connecting ∧ activity.showFinishAd.1 = activity.connectFun ∨
      activity.nowClickState ≠ .connecting ∧ activity.showFinishAd.1 = activity := by
  rw [showFinishAd]
  split
  next connecting => exact Or.inl ⟨connecting, rfl⟩
  next idle => exact Or.inr ⟨by rw [idle]; decide, rfl⟩
  next disconnecting => exact Or.inr ⟨by rw [disconnecting]; decide, rfl⟩

theorem resumeAd_cases (position : Nat) (outcome : AdOutcome) (activity : MainActivity) :
    (activity.resumeAd position outcome).1 = activity ∨
      activity.adJobs ≠ [] ∧ ∃ ads,
        (activity.resumeAd position outcome).1 = { activity with adJobs := ads } ∨
          (activity.resumeAd position outcome).1 =
            { activity with adJobs := ads }.showFinishAd.1 := by
  cases found : activity.adJobs[position]? with
  | none => exact Or.inl (by simp only [resumeAd, found])
  | some job =>
      have pending : activity.adJobs ≠ [] := by
        intro none
        simp [none] at found
      refine Or.inr ⟨pending, ?_⟩
      cases job <;> cases outcome <;> simp only [resumeAd, found, dropAd]
      case looping.shown | looping.refused => exact ⟨_, Or.inl rfl⟩
      all_goals exact ⟨_, Or.inr rfl⟩

/-- The coroutine of `startVpn` leaves everything but itself alone, or launches a loop of
`showConnectAd` to disconnect. -/
theorem resumeConnect_cases (blocked : Bool) (activity : MainActivity) :
    ∃ job ads, (activity.resumeConnect blocked).1 =
        { activity with connectJob := job, adJobs := ads } ∧
      (ads = activity.adJobs ∨ activity.nowClickState = .disconnecting) := by
  rw [resumeConnect]
  split
  next =>
    split
    next => exact ⟨some .lingering, activity.adJobs, rfl, Or.inl rfl⟩
    next => exact ⟨none, activity.adJobs, rfl, Or.inl rfl⟩
    next disconnecting =>
      rw [showConnectAd]
      split
      next =>
        rcases showFinishAd_cases { activity with connectJob := none } with
          ⟨connecting, _⟩ | ⟨_, same⟩
        · rw [disconnecting] at connecting
          cases connecting
        · exact ⟨none, activity.adJobs, same, Or.inl rfl⟩
      next => exact ⟨none, _, rfl, Or.inr disconnecting⟩
  all_goals exact ⟨none, activity.adJobs, rfl, Or.inl rfl⟩

theorem resumeFinish_ends {activity : MainActivity} {position : Nat} {job : FinishJob}
    (found : activity.finishJobs[position]? = some job)
    (ready : job.sleeping = true ∨ activity.nowClickState = .idle) :
    activity.resumeFinish position =
      ({ activity with
          finishJobs := activity.finishJobs.eraseIdx position
          showVpnState := job.kind.shows }, some job.kind.calls) := by
  simp only [resumeFinish, found, if_pos ready]

theorem resumeFinish_sleeps {activity : MainActivity} {position : Nat} {job : FinishJob}
    (found : activity.finishJobs[position]? = some job)
    (early : ¬ (job.sleeping = true ∨ activity.nowClickState = .idle)) :
    activity.resumeFinish position =
      ({ activity with
          nowClickState := .idle
          finishJobs := activity.finishJobs.set position { job with sleeping := true } },
        none) := by
  simp only [resumeFinish, found, if_neg early]

/-! ## The screen's own events keep it sound -/

theorem Sound.adJobs {activity : MainActivity} (sound : activity.Sound) {ads : List AdJob}
    (fewer : ads ≠ [] → activity.adJobs ≠ []) : { activity with adJobs := ads }.Sound where
  shows := sound.shows
  up connecting some := sound.up connecting (fewer some)
  ends := by
    rintro (idle | launched | ⟨connecting, some⟩)
    · exact sound.ends (Or.inl idle)
    · exact sound.ends (Or.inr (Or.inl launched))
    · exact sound.ends (Or.inr (Or.inr ⟨connecting, fewer some⟩))

/-- An advertisement that is gone calls `showFinishAd`. -/
theorem Sound.showFinishAd {activity : MainActivity} (sound : activity.Sound)
    (pending : activity.adJobs ≠ []) (ads : List AdJob) :
    { activity with adJobs := ads }.showFinishAd.1.Sound := by
  rcases showFinishAd_cases { activity with adJobs := ads } with ⟨connecting, launch⟩ | ⟨_, same⟩
  · have up := sound.up connecting pending
    have ends := sound.ends (Or.inr (Or.inr ⟨connecting, pending⟩))
    rw [launch]
    refine ⟨fun _ none => ?_, fun _ _ => up, fun _ => ?_⟩
    · exact absurd none (launch_finishJobs_ne_nil .connectFun _)
    · apply (allEnd_launch_iff .connectFun _ _).mpr
      exact ⟨ends, ((right_eq_connected_iff activity).mpr up).symm⟩
  · rw [same]
    exact sound.adJobs (fun _ => pending)

theorem Sound.resumeAd {activity : MainActivity} (sound : activity.Sound) (position : Nat)
    (outcome : AdOutcome) : (activity.resumeAd position outcome).1.Sound := by
  rcases resumeAd_cases position outcome activity with same | ⟨pending, ads, gone | finished⟩
  · rw [same]
    exact sound
  · rw [gone]
    exact sound.adJobs (fun _ => pending)
  · rw [finished]
    exact sound.showFinishAd pending ads

theorem Sound.resumeConnect {activity : MainActivity} (sound : activity.Sound)
    (blocked : Bool) : (activity.resumeConnect blocked).1.Sound := by
  obtain ⟨job, ads, resumed, same | disconnecting⟩ := resumeConnect_cases blocked activity
  · rw [resumed, same]
    exact ⟨sound.shows, sound.up, sound.ends⟩
  · rw [resumed]
    refine ⟨sound.shows, ?_, ?_⟩
    · intro connecting
      exact absurd (disconnecting.symm.trans connecting) (by decide)
    · rintro (idle | launched | ⟨connecting, _⟩)
      · exact sound.ends (Or.inl idle)
      · exact sound.ends (Or.inr (Or.inl launched))
      · exact absurd (disconnecting.symm.trans connecting) (by decide)

theorem Sound.ended {activity : MainActivity} (sound : activity.Sound) {position : Nat}
    {job : FinishJob} (found : activity.finishJobs[position]? = some job) :
    { activity with
      finishJobs := activity.finishJobs.eraseIdx position
      showVpnState := job.kind.shows }.Sound where
  shows idle _ := sound.ends (Or.inl idle) job (List.mem_of_getElem? found)
  up := sound.up
  ends := by
    intro returns other left
    refine sound.ends ?_ other (List.mem_of_mem_eraseIdx left)
    rcases returns with idle | ⟨launched, member, awake⟩ | connecting
    · exact Or.inl idle
    · exact Or.inr (Or.inl ⟨launched, List.mem_of_mem_eraseIdx member, awake⟩)
    · exact Or.inr (Or.inr connecting)

theorem Sound.slept {activity : MainActivity} (sound : activity.Sound) {position : Nat}
    {job : FinishJob} (found : activity.finishJobs[position]? = some job)
    (awake : job.sleeping = false) :
    { activity with
      nowClickState := .idle
      finishJobs := activity.finishJobs.set position { job with sleeping := true } }.Sound := by
  have member := List.mem_of_getElem? found
  have ends := sound.ends (Or.inr (Or.inl ⟨job, member, awake⟩))
  refine ⟨?_, fun connecting => (nomatch connecting), fun _ other => ?_⟩
  · intro _ none
    have emptied := congrArg List.length none
    rw [List.length_set] at emptied
    rw [List.length_eq_zero_iff.mp emptied] at member
    cases member
  · intro left
    rcases List.mem_or_eq_of_mem_set left with old | rfl
    · exact ends other old
    · exact ends job member

theorem Sound.resumeFinish {activity : MainActivity} (sound : activity.Sound)
    (position : Nat) : (activity.resumeFinish position).1.Sound := by
  cases found : activity.finishJobs[position]? with
  | none =>
      simp only [MainActivity.resumeFinish, found]
      exact sound
  | some job =>
      by_cases ready : job.sleeping = true ∨ activity.nowClickState = .idle
      · rw [resumeFinish_ends found ready]
        exact sound.ended found
      · rw [resumeFinish_sleeps found ready]
        exact sound.slept found (Bool.eq_false_of_not_eq_true (fun asleep => ready (Or.inl asleep)))

theorem Sound.own {activity : MainActivity} (sound : activity.Sound) {event : Event}
    (own : event.Own) : (activity.step event).Sound := by
  cases event with
  | connectJob blocked => exact sound.resumeConnect blocked
  | adJob position outcome => exact sound.resumeAd position outcome
  | finishJob position => exact sound.resumeFinish position
  | _ => exact own.elim

theorem Sound.settlesRight {activity : MainActivity} (sound : activity.Sound) :
    activity.SettlesRight := by
  have kept : ∀ (other : MainActivity) (event : Event), other.Sound → event.Own →
      (other.step event).Sound := fun _ _ sound own => sound.own own
  have shown : ∀ other : MainActivity, other.Sound → other.Rests → other.ShowsRight :=
    fun _ sound rests => sound.showsRight rests
  exact settles_of_kept kept shown sound

/-! ## A screen that settles right is sound -/

theorem SettlesRight.next {activity : MainActivity} (settles : activity.SettlesRight)
    (event : Event) (own : event.Own) : (activity.step event).SettlesRight :=
  Settles.next settles own

theorem resumeAd_timeout {activity : MainActivity} {job : AdJob} {rest : List AdJob}
    (pending : activity.adJobs = job :: rest) :
    (activity.resumeAd 0 .timeout).1 = { activity with adJobs := rest }.showFinishAd.1 := by
  cases job <;> simp [resumeAd, pending, dropAd]

theorem resumeConnect_idle {activity : MainActivity} (idle : activity.nowClickState = .idle)
    (blocked : Bool) :
    (activity.resumeConnect blocked).1 = { activity with connectJob := none } := by
  rw [resumeConnect]
  split
  next =>
    split
    next connecting => exact absurd (idle.symm.trans connecting) (by decide)
    next => rfl
    next disconnecting => exact absurd (idle.symm.trans disconnecting) (by decide)
  all_goals rfl

/-- With nothing left that changes `showVpnState`, the screen comes to rest as it is. -/
theorem SettlesRight.shows {activity : MainActivity} (settles : activity.SettlesRight)
    (idle : activity.nowClickState = .idle) (none : activity.finishJobs = []) :
    activity.ShowsRight := by
  cases activity with
  | mk vvState nowClickState showVpnState connectJob adJobs finishJobs =>
  simp only at idle none
  subst idle none
  -- Each advertisement in turn finds 1 and does nothing.
  induction adJobs with
  | nil =>
      have ended := settles.next (.connectJob true) trivial
      rw [step, perform, resumeConnect_idle rfl] at ended
      exact ended.right ⟨rfl, rfl, rfl, rfl⟩
  | cons job rest ih =>
      apply ih
      have dropped := settles.next (.adJob 0 .timeout) trivial
      rw [step, perform, resumeAd_timeout rfl] at dropped
      exact dropped

theorem SettlesRight.ended {activity : MainActivity} (settles : activity.SettlesRight)
    (idle : activity.nowClickState = .idle) {position : Nat} {job : FinishJob}
    (found : activity.finishJobs[position]? = some job) :
    { activity with
      finishJobs := activity.finishJobs.eraseIdx position
      showVpnState := job.kind.shows }.SettlesRight := by
  have ended := settles.next (.finishJob position) trivial
  rw [step, perform, resumeFinish_ends found (Or.inr idle)] at ended
  exact ended

/-- The first coroutine may be the last to be resumed. -/
theorem SettlesRight.ends_first {activity : MainActivity} (settles : activity.SettlesRight)
    (idle : activity.nowClickState = .idle) {first : FinishJob} {rest : List FinishJob}
    (jobs : activity.finishJobs = first :: rest) : first.kind.shows = activity.right := by
  cases activity with
  | mk vvState nowClickState showVpnState connectJob adJobs finishJobs =>
  simp only at idle jobs
  subst idle jobs
  induction rest generalizing showVpnState with
  | nil => exact (settles.ended rfl List.getElem?_cons_zero).shows rfl rfl
  | cons second rest ih =>
      have found : (first :: second :: rest)[1]? = some second := rfl
      exact ih _ (settles.ended rfl found)

theorem SettlesRight.ends_idle {activity : MainActivity} (settles : activity.SettlesRight)
    (idle : activity.nowClickState = .idle) : activity.AllEnd activity.right := by
  intro job member
  cases activity with
  | mk vvState nowClickState showVpnState connectJob adJobs finishJobs =>
  simp only at idle member
  subst idle
  induction finishJobs generalizing showVpnState with
  | nil => cases member
  | cons first rest ih =>
      rcases List.mem_cons.mp member with rfl | later
      · exact settles.ends_first rfl rfl
      · exact ih _ later (settles.ended rfl List.getElem?_cons_zero)

/-- A coroutine that has not run yet sets `nowClickState` to 1 before it sleeps. -/
theorem SettlesRight.ends_launched {activity : MainActivity} (settles : activity.SettlesRight)
    (launched : activity.Launched) : activity.AllEnd activity.right := by
  by_cases idle : activity.nowClickState = .idle
  · exact settles.ends_idle idle
  · obtain ⟨job, member, awake⟩ := launched
    obtain ⟨position, found⟩ := List.getElem?_of_mem member
    have early : ¬ (job.sleeping = true ∨ activity.nowClickState = .idle) := by
      rw [awake]
      exact fun ready => ready.elim Bool.false_ne_true idle
    have slept := settles.next (.finishJob position) trivial
    rw [step, perform, resumeFinish_sleeps found early] at slept
    have ends := slept.ends_idle rfl
    intro other left
    obtain ⟨place, held⟩ := List.getElem?_of_mem left
    by_cases same : position = place
    · subst same
      rw [found] at held
      cases held
      exact ends { job with sleeping := true }
        (List.mem_set (List.getElem?_eq_some_iff.mp found).1 _)
    · apply ends other
      apply List.mem_of_getElem? (i := place)
      rw [List.getElem?_set_ne same]
      exact held

/-- An advertisement that ends launches `connectFun`. -/
theorem SettlesRight.finished {activity : MainActivity} (settles : activity.SettlesRight)
    (connecting : activity.nowClickState = .connecting) (pending : activity.adJobs ≠ []) :
    activity.AllEnd activity.right ∧ activity.vvState = true := by
  obtain ⟨job, rest, jobs⟩ := List.exists_cons_of_ne_nil pending
  have finished := settles.next (.adJob 0 .timeout) trivial
  rw [step, perform, resumeAd_timeout jobs] at finished
  rcases showFinishAd_cases { activity with adJobs := rest } with ⟨_, launch⟩ | ⟨other, _⟩
  · rw [launch] at finished
    have ends := finished.ends_launched (launched_launch .connectFun _)
    obtain ⟨all, shows⟩ := (allEnd_launch_iff .connectFun _ _).mp ends
    exact ⟨all, (right_eq_connected_iff activity).mp shows.symm⟩
  · exact absurd connecting other

/-- `Sound` says exactly that the screen settles on the right state. -/
theorem settlesRight_iff_sound (activity : MainActivity) :
    activity.SettlesRight ↔ activity.Sound := by
  refine ⟨fun settles => ⟨settles.shows, ?_, ?_⟩, Sound.settlesRight⟩
  · intro connecting pending
    exact (settles.finished connecting pending).2
  · rintro (idle | launched | ⟨connecting, pending⟩)
    · exact settles.ends_idle idle
    · exact settles.ends_launched launched
    · exact (settles.finished connecting pending).1

/-! ## The events of the outside -/

def Safe (activity : MainActivity) : Event → Prop
  -- No advertisement of an earlier action is left when a connection is started.
  | .click available => activity.showVpnState ≠ .working → available = true →
      activity.adJobs ≠ [] → activity.vvState = true
  | .startVpn available => available = true → activity.adJobs ≠ [] → activity.vvState = true
  -- The action that is given up has not taken effect yet.
  | .onStop => activity.showVpnState = .working → activity.nowClickState ≠ .idle →
      activity.AllEnd activity.right ∧
        (activity.finishJobs = [] →
          (activity.vvState = true ↔ activity.nowClickState = .disconnecting))
  -- The screen waits for the connection or shows it already.
  | .stateChanged .connected _ =>
      (activity.nowClickState = .idle → activity.finishJobs = [] →
        activity.showVpnState = .connected) ∧
      (activity.nowClickState ≠ .disconnecting ∨ activity.Launched → activity.AllEnd .connected)
  -- No coroutine or advertisement will show a connection.
  | .stateChanged .stopped _ =>
      activity.AllEnd .stopped ∧ (activity.nowClickState = .connecting → activity.adJobs = [])
  | .onServiceConnected .connected => activity.Returns → activity.AllEnd .connected
  | .onServiceConnected .stopped =>
      (activity.nowClickState = .connecting → activity.adJobs = []) ∧
        (activity.Returns → activity.AllEnd .stopped)
  | _ => True

theorem Sound.startVpn_iff {activity : MainActivity} (sound : activity.Sound)
    (available : Bool) :
    (activity.startVpn available).Sound ↔
      (available = true → activity.adJobs ≠ [] → activity.vvState = true) := by
  cases available with
  | false =>
      rw [startVpn]
      exact ⟨fun _ false => (nomatch false), fun _ => ⟨sound.shows, sound.up, sound.ends⟩⟩
  | true =>
      rw [startVpn, if_pos rfl]
      cases up : activity.vvState with
      | true =>
          refine ⟨fun _ _ _ => rfl, fun _ => ⟨?_, ?_, ?_⟩⟩
          · intro idle
            cases idle
          · intro connecting
            cases connecting
          · rintro (idle | launched | ⟨connecting, _⟩)
            · cases idle
            · rw [right, if_pos rfl, ← (right_eq_connected_iff activity).mpr up]
              exact sound.ends (Or.inr (Or.inl launched))
            · cases connecting
      | false =>
          refine ⟨fun after _ pending => after.up rfl pending, fun none => ⟨?_, ?_, ?_⟩⟩
          · intro idle
            cases idle
          · intro _ pending
            exact none rfl pending
          · rintro (idle | launched | ⟨_, pending⟩)
            · cases idle
            · rw [right, if_neg Bool.false_ne_true, ← (right_eq_stopped_iff activity).mpr up]
              exact sound.ends (Or.inr (Or.inl launched))
            · exact absurd (none rfl pending) Bool.false_ne_true

theorem Sound.onStop_iff {activity : MainActivity} (sound : activity.Sound) :
    activity.onStop.Sound ↔ activity.Safe .onStop := by
  rw [onStop]
  split
  next working connecting =>
    refine ⟨fun after _ _ => ⟨after.ends (Or.inl rfl), ?_⟩, fun safe => ?_⟩
    · intro none
      have shown : ShowState.stopped = activity.right := after.shows rfl none
      rw [(right_eq_stopped_iff activity).mp shown.symm, connecting]
      decide
    · obtain ⟨ends, agrees⟩ := safe working (by rw [connecting]; decide)
      refine ⟨fun _ none => ?_, fun other => (nomatch other), fun _ => ends⟩
      have down := agrees none
      rw [connecting] at down
      apply Eq.symm
      apply (right_eq_stopped_iff activity).mpr
      apply Bool.eq_false_of_not_eq_true
      intro up
      cases down.mp up
  next working disconnecting =>
    refine ⟨fun after _ _ => ⟨after.ends (Or.inl rfl), ?_⟩, fun safe => ?_⟩
    · intro none
      have shown : ShowState.connected = activity.right := after.shows rfl none
      rw [(right_eq_connected_iff activity).mp shown.symm, disconnecting]
      decide
    · obtain ⟨ends, agrees⟩ := safe working (by rw [disconnecting]; decide)
      refine ⟨fun _ none => ?_, fun other => (nomatch other), fun _ => ends⟩
      exact ((right_eq_connected_iff activity).mpr ((agrees none).mpr disconnecting)).symm
  next notConnecting notDisconnecting =>
    refine ⟨fun _ working busy => ?_, fun _ => sound⟩
    cases click : activity.nowClickState with
    | connecting => exact absurd click (notConnecting working)
    | idle => exact absurd click busy
    | disconnecting => exact absurd click (notDisconnecting working)

/-- The service has connected, and the screen does not wait for it. -/
theorem sound_up_iff {activity : MainActivity} (other : activity.nowClickState ≠ .connecting)
    (ads : List AdJob) (blocked : Bool) :
    { activity with vvState := true, adJobs := ads }.Sound ↔
      activity.Safe (.stateChanged .connected blocked) := by
  constructor
  · intro after
    refine ⟨after.shows, ?_⟩
    rintro (busy | launched)
    · cases click : activity.nowClickState with
      | connecting => exact absurd click other
      | idle => exact after.ends (Or.inl click)
      | disconnecting => exact absurd click busy
    · exact after.ends (Or.inr (Or.inl launched))
  · rintro ⟨shows, ends⟩
    refine ⟨shows, fun connecting => absurd connecting other, ?_⟩
    rintro (idle | launched | ⟨connecting, _⟩)
    · refine ends (Or.inl (fun disconnecting => ?_))
      cases idle.symm.trans disconnecting
    · exact ends (Or.inr launched)
    · exact absurd connecting other

/-- The service has connected while the screen waits for it, and what ends the wait is left
behind. -/
theorem sound_waiting_iff {activity next : MainActivity} (blocked : Bool)
    (connecting : activity.nowClickState = .connecting)
    (click : next.nowClickState = .connecting) (up : next.vvState = true)
    (returns : next.Returns)
    (ends : next.AllEnd .connected ↔ activity.AllEnd .connected) :
    next.Sound ↔ activity.Safe (.stateChanged .connected blocked) := by
  have shown := (right_eq_connected_iff next).mpr up
  constructor
  · intro after
    refine ⟨fun idle => ?_, fun _ => ends.mp ?_⟩
    · cases connecting.symm.trans idle
    · rw [← shown]
      exact after.ends returns
  · rintro ⟨_, all⟩
    refine ⟨fun idle => ?_, fun _ _ => up, fun _ => ?_⟩
    · cases click.symm.trans idle
    · rw [shown]
      refine ends.mpr (all (Or.inl (fun disconnecting => ?_)))
      cases connecting.symm.trans disconnecting

theorem stateChanged_connected_iff (activity : MainActivity) (blocked : Bool) :
    (activity.stateChanged .connected blocked).1.Sound ↔
      activity.Safe (.stateChanged .connected blocked) := by
  simp only [stateChanged, showConnectAd]
  cases blocked with
  | true =>
      rw [if_pos rfl]
      rcases showFinishAd_cases { activity with vvState := true } with
        ⟨connecting, launch⟩ | ⟨other, same⟩
      · rw [launch]
        refine sound_waiting_iff true connecting connecting rfl
          (Or.inr (Or.inl (launched_launch .connectFun _))) ?_
        exact (allEnd_launch_iff .connectFun _ _).trans (and_iff_left rfl)
      · rw [same]
        exact sound_up_iff other activity.adJobs true
  | false =>
      rw [if_neg Bool.false_ne_true]
      by_cases connecting : activity.nowClickState = .connecting
      · refine sound_waiting_iff false connecting connecting rfl
          (Or.inr (Or.inr ⟨connecting, ?_⟩)) Iff.rfl
        exact List.append_ne_nil_of_right_ne_nil _ (List.cons_ne_nil _ _)
      · exact sound_up_iff connecting _ false

theorem stateChanged_stopped_iff (activity : MainActivity) (blocked : Bool) :
    (activity.stateChanged .stopped blocked).1.Sound ↔
      activity.Safe (.stateChanged .stopped blocked) := by
  simp only [stateChanged, disConnectFun]
  constructor
  · intro after
    have ends := after.ends (Or.inr (Or.inl (launched_launch .disConnectFun _)))
    refine ⟨((allEnd_launch_iff _ _ _).mp ends).1, fun connecting => ?_⟩
    by_contra pending
    exact absurd (after.up connecting pending) Bool.false_ne_true
  · rintro ⟨ends, gone⟩
    refine ⟨fun _ none => ?_, fun connecting pending => ?_, fun _ => ?_⟩
    · exact absurd none (launch_finishJobs_ne_nil .disConnectFun _)
    · exact absurd (gone connecting) pending
    · exact (allEnd_launch_iff .disConnectFun _ _).mpr ⟨ends, rfl⟩

theorem Sound.stateChanged_iff {activity : MainActivity} (sound : activity.Sound)
    (state : Bg.State) (blocked : Bool) :
    (activity.stateChanged state blocked).1.Sound ↔
      activity.Safe (.stateChanged state blocked) := by
  cases state with
  | connected => exact stateChanged_connected_iff activity blocked
  | stopped => exact stateChanged_stopped_iff activity blocked
  | _ => exact iff_of_true sound trivial

theorem Sound.onServiceConnected_iff {activity : MainActivity} (sound : activity.Sound)
    (state : Bg.State) :
    (activity.onServiceConnected state).1.Sound ↔
      activity.Safe (.onServiceConnected state) := by
  cases state with
  | connected =>
      exact ⟨fun after => after.ends, fun ends => ⟨fun _ _ => rfl, fun _ _ => rfl, ends⟩⟩
  | stopped =>
      constructor
      · intro after
        refine ⟨fun connecting => ?_, after.ends⟩
        by_contra pending
        exact absurd (after.up connecting pending) Bool.false_ne_true
      · rintro ⟨gone, ends⟩
        exact ⟨fun _ _ => rfl, fun connecting pending => absurd (gone connecting) pending, ends⟩
  | _ => exact iff_of_true sound trivial

theorem Sound.step_iff {activity : MainActivity} (sound : activity.Sound) (event : Event) :
    (activity.step event).Sound ↔ activity.Safe event := by
  cases event with
  | click available =>
      simp only [step, perform, clickBlock, Safe]
      split
      next ready =>
        exact (sound.startVpn_iff available).trans ⟨fun safe _ => safe, fun safe => safe ready⟩
      next working => exact iff_of_true sound (fun ready => absurd ready working)
  | startVpn available => exact sound.startVpn_iff available
  | connectJob blocked => exact iff_of_true (sound.resumeConnect blocked) trivial
  | adJob position outcome => exact iff_of_true (sound.resumeAd position outcome) trivial
  | finishJob position => exact iff_of_true (sound.resumeFinish position) trivial
  | onStop => exact sound.onStop_iff
  | stateChanged state blocked => exact sound.stateChanged_iff state blocked
  | onServiceConnected state => exact sound.onServiceConnected_iff state

/-! ## Whole runs -/

/-- At every point of a run, the screen settles on the right state if it is left alone. -/
def SettlesThroughout (start : MainActivity) (events : List Event) : Prop :=
  ∀ first second, events = first ++ second →
    (Machine.run MainActivity.step start first).SettlesRight

/-- The home screen settles on the right state throughout a run exactly if it is created
without a connection and every event of the outside is safe. -/
theorem settlesThroughout_iff_safe (vvState : Bool) (events : List Event) :
    SettlesThroughout (created vvState) events ↔
      vvState = false ∧ Machine.Along MainActivity.step Safe (created vvState) events := by
  simp only [SettlesThroughout, settlesRight_iff_sound]
  cases vvState with
  | true =>
      refine ⟨fun sound => ?_, fun safe => (nomatch safe.1)⟩
      cases (sound [] events rfl).shows rfl rfl
  | false =>
      have start : (created false).Sound := by
        refine ⟨fun _ _ => rfl, fun connecting => (nomatch connecting), fun _ job member => ?_⟩
        cases member
      have kept : ∀ (activity : MainActivity) (event : Event), activity.Sound →
          ((activity.step event).Sound ↔ activity.Safe event) := fun _ event sound =>
        sound.step_iff event
      exact (Machine.throughout_iff_along kept start events).trans (and_iff_right rfl).symm

/-- The screen is left after the service has been started. `onStop` gives the connection
up, the service connects all the same, and the screen rests on 0 with the connection up. -/
theorem not_settlesThroughout_leftWhileConnecting :
    let events : List Event := [.click true, .connectJob true, .onStop,
      .stateChanged .connected true, .connectJob true]
    let last := Machine.run MainActivity.step (created false) events
    last.Rests ∧ last.vvState = true ∧ last.showVpnState = .stopped ∧
      ¬ SettlesThroughout (created false) events := by
  intro events last
  have rests : last.Rests := ⟨rfl, rfl, rfl, rfl⟩
  refine ⟨rests, rfl, rfl, ?_⟩
  intro settles
  cases (settles events [] (List.append_nil events).symm).right rests

end AlienConnection.Ui.MainActivity
