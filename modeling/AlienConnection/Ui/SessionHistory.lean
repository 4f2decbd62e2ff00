import AlienConnection.Library.Machine
import AlienConnection.Ui.DataUtils

/-!
# The entry of a session

The clock and the result page find the entry of the running session by the date of the
chosen server. So the session is lost for them as soon as something else becomes the chosen
server, and `startVpn` does that too when it is called to disconnect: it draws a smart
server anew.
-/

namespace AlienConnection.Ui

open Library

/-- What happens between `addHisVpn` and the result page of the end of the session. -/
inductive SessionEvent where
  | tick (elapsed : Int) (draw : Nat)
  /-- Another reader of the chosen server. -/
  | getNowVpn (draw : Nat)
  /-- A server is picked while connected. -/
  | setClickVpn (vpn : HisBean)
  /-- A click to disconnect. -/
  | startVpn (draws : DataUtils.Draws)
  /-- The result page of the start of the session. -/
  | connectedPage
  /-- A list of servers has been loaded. -/
  | onlineList (smartList : List HisBean)

namespace DataUtils

def step (data : DataUtils) : SessionEvent → DataUtils
  | .tick elapsed draw => data.tick elapsed draw
  | .getNowVpn draw => (data.getNowVpn draw).2
  | .setClickVpn vpn => { data with clickVpn := some vpn }
  | .startVpn draws => data.startVpn draws
  | .connectedPage => data.showVpnState true 0
  | .onlineList smartList => { data with smartList := smartList }

/-- The chosen server has the date of the session, and what is recorded at any time goes to
the one entry of that date and leaves the others as they are. Dates do not change and no
entry is removed, so that entry is the one that `addHisVpn` has added. -/
structure Tracks (vpnDate : String) (data : DataUtils) : Prop where
  date : ∀ draw, (data.getNowVpn draw).1.vpnDate = vpnDate
  single : data.hisVpn.countP (fun vpn => vpn.vpnDate = vpnDate) = 1
  edits : ∀ endTime draw, ({ data with endTime := endTime }.recordTime draw).hisVpn =
    data.getHisListVpn.map (withTime vpnDate endTime)

/-- From `addHisVpn` on, at every time until the result page records the time of the
session. -/
def TracksSession (millis : Int) (draw : Nat) (data : DataUtils) (events : List SessionEvent) :
    Prop :=
  ∀ first second, events = first ++ second →
    (Machine.run step (data.addHisVpn millis draw) first).Tracks (toString millis)

/-! ## When the date is kept -/

def SmartDated (vpnDate : String) (data : DataUtils) : Prop :=
  data.smartList ≠ [] ∧ ∀ smart ∈ data.smartList, smart.vpnDate = vpnDate

/-- The server has the date and a host. One without a host will be replaced by a smart one. -/
def Carries (vpnDate : String) (data : DataUtils) (vpn : HisBean) : Prop :=
  if vpn.hasHost then vpn.vpnDate = vpnDate else data.SmartDated vpnDate

/-- The smart server that `setSkServerData` draws, and draws again without a host. -/
def redraw (draws : Draws) (data : DataUtils) : HisBean :=
  if (data.getSmartList draws.smart).hasHost then data.getSmartList draws.smart
  else data.getSmartList draws.after

def Keeps (vpnDate : String) (data : DataUtils) : SessionEvent → Prop
  | .tick _ _ | .getNowVpn _ | .setClickVpn _ => True
  | .startVpn draws =>
      data.smartList ≠ [] → (data.getNowVpn draws.before).1.isSmart = true →
        data.Carries vpnDate (data.redraw draws)
  | .connectedPage => ∀ vpn, data.clickVpn = some vpn → data.Carries vpnDate vpn
  | .onlineList smartList =>
      data.chosen = none → { data with smartList := smartList }.SmartDated vpnDate

/-- The date of the session is new, its server has a host, and no event puts a server
without the date in its place. -/
structure KeepsSession (millis : Int) (draw : Nat) (data : DataUtils)
    (events : List SessionEvent) : Prop where
  fresh : ∀ vpn ∈ data.hisVpn, vpn.vpnDate ≠ toString millis
  host : (data.getNowVpn draw).1.hasHost = true ∨ data.SmartDated (toString millis)
  keeps : Machine.Along step (Keeps (toString millis)) (data.addHisVpn millis draw) events

/-! ## The date of the chosen server -/

def Dated (vpnDate : String) (data : DataUtils) : Prop :=
  match data.chosen with
  | some vpn => vpn.vpnDate = vpnDate
  | none => data.SmartDated vpnDate

variable {data : DataUtils} {vpnDate : String}

theorem dated_of_some {vpn : HisBean} (found : data.chosen = some vpn) :
    data.Dated vpnDate ↔ vpn.vpnDate = vpnDate := by
  rw [Dated, found]

theorem dated_of_none (missing : data.chosen = none) :
    data.Dated vpnDate ↔ data.SmartDated vpnDate := by
  rw [Dated, missing]

/-- The servers that can be drawn have the date exactly if every draw has it. -/
theorem smartDated_iff (someDate : vpnDate ≠ "") :
    data.SmartDated vpnDate ↔ ∀ draw, (data.getSmartList draw).vpnDate = vpnDate := by
  by_cases available : data.smartList = []
  · constructor
    · intro dated
      exact absurd available dated.1
    · intro draws
      have drawn : (data.getSmartList 0).vpnDate = "" := by
        rw [getSmartList, available]
        rfl
      exact absurd (drawn.symm.trans (draws 0)).symm someDate
  · rw [@forall_getSmartList_iff data available (fun vpn => vpn.vpnDate = vpnDate)]
    exact and_iff_right available

theorem dated_iff (someDate : vpnDate ≠ "") :
    data.Dated vpnDate ↔ ∀ draw, (data.getNowVpn draw).1.vpnDate = vpnDate := by
  cases found : data.chosen with
  | some vpn => simp only [dated_of_some found, getNowVpn_of_some found, forall_const]
  | none =>
      simp only [dated_of_none found, getNowVpn_of_none found]
      exact smartDated_iff someDate

theorem chosen_setNowVpn (data : DataUtils) (vpn : HisBean) :
    { data with nowVpn := some vpn }.chosen = if vpn.hasHost then some vpn else none := by
  rw [chosen, Option.filter_some]

/-- A server in the place of the chosen one. -/
theorem dated_setNowVpn (vpn : HisBean) :
    { data with nowVpn := some vpn }.Dated vpnDate ↔ data.Carries vpnDate vpn := by
  have chosen := data.chosen_setNowVpn vpn
  rw [Carries]
  split at chosen
  next host =>
    rw [if_pos host]
    exact dated_of_some chosen
  next blank =>
    rw [if_neg blank]
    exact dated_of_none chosen

theorem Dated.getNowVpn (someDate : vpnDate ≠ "") (dated : data.Dated vpnDate) (draw : Nat) :
    (data.getNowVpn draw).2.Dated vpnDate := by
  cases found : data.chosen with
  | some vpn =>
      rw [getNowVpn_of_some found]
      exact dated
  | none =>
      rw [getNowVpn_of_none found, dated_setNowVpn, Carries]
      have smart := (dated_of_none found).mp dated
      split
      · exact (smartDated_iff someDate).mp smart draw
      · exact smart

/-- A call that finds a server with a host keeps it, and one that does not keeps what it has
drawn. -/
theorem getNowVpn_setNowVpn (vpn : HisBean) (draw : Nat) :
    ({ data with nowVpn := some vpn }.getNowVpn draw).2 =
      { data with nowVpn := some (if vpn.hasHost then vpn else data.getSmartList draw) } := by
  have chosen := data.chosen_setNowVpn vpn
  split at chosen
  next host =>
    rw [getNowVpn_of_some chosen, if_pos host]
  next blank =>
    rw [getNowVpn_of_none chosen, if_neg blank]
    rfl

/-- A smart server is replaced by the one that is drawn, any other one stays. -/
theorem serverData_eq (draws : Draws) :
    (data.serverData draws).2 =
      if (data.getNowVpn draws.before).1.isSmart then
        { data with nowVpn := some (data.redraw draws) }
      else (data.getNowVpn draws.before).2 := by
  obtain ⟨nowVpn, same⟩ := data.getNowVpn_frame draws.before
  rw [serverData]
  split
  · have drawn : (data.getNowVpn draws.before).2.getSmartList draws.smart =
        data.getSmartList draws.smart := by
      rw [same]
      rfl
    rw [drawn, same]
    exact getNowVpn_setNowVpn _ _
  · rfl

/-! ## One event -/

theorem dated_startVpn (someDate : vpnDate ≠ "") (dated : data.Dated vpnDate) (draws : Draws) :
    (data.startVpn draws).Dated vpnDate ↔ data.Keeps vpnDate (.startVpn draws) := by
  rw [startVpn, Keeps]
  split
  next missing => simp [missing, dated]
  next available =>
    rw [serverData_eq]
    split
    next smart =>
      rw [dated_setNowVpn]
      simp [available, smart]
    next listed =>
      have kept := dated.getNowVpn someDate draws.before
      simp [listed, kept]

theorem dated_connectedPage (dated : data.Dated vpnDate) :
    (data.showVpnState true 0).Dated vpnDate ↔ data.Keeps vpnDate .connectedPage := by
  have page : data.showVpnState true 0 = { data with endTime := "00:00:00" }.takeClickVpn := rfl
  rw [page, takeClickVpn, Keeps]
  cases clicked : data.clickVpn with
  | none => exact iff_of_true dated nofun
  | some vpn =>
      simp only [Option.some.injEq, forall_eq']
      exact dated_setNowVpn vpn

theorem dated_onlineList (dated : data.Dated vpnDate) (smartList : List HisBean) :
    { data with smartList := smartList }.Dated vpnDate ↔
      data.Keeps vpnDate (.onlineList smartList) := by
  have same : { data with smartList := smartList }.chosen = data.chosen := rfl
  rw [Keeps]
  cases found : data.chosen with
  | some vpn =>
      rw [dated_of_some (same.trans found)]
      simpa using (dated_of_some found).mp dated
  | none =>
      rw [dated_of_none (same.trans found)]
      simp

theorem dated_step (someDate : vpnDate ≠ "") (dated : data.Dated vpnDate)
    (event : SessionEvent) : (data.step event).Dated vpnDate ↔ data.Keeps vpnDate event := by
  cases event with
  | tick elapsed draw =>
      have timed : { data with endTime := formatTime elapsed }.Dated vpnDate := dated
      exact iff_of_true (timed.getNowVpn someDate draw) trivial
  | getNowVpn draw => exact iff_of_true (dated.getNowVpn someDate draw) trivial
  | setClickVpn vpn => exact iff_of_true dated trivial
  | startVpn draws => exact dated_startVpn someDate dated draws
  | connectedPage => exact dated_connectedPage dated
  | onlineList smartList => exact dated_onlineList dated smartList

/-- No event adds or removes an entry, or changes a date. -/
theorem countP_step (vpnDate : String) (data : DataUtils) (event : SessionEvent) :
    (data.step event).hisVpn.countP (fun vpn => vpn.vpnDate = vpnDate) =
      data.hisVpn.countP (fun vpn => vpn.vpnDate = vpnDate) := by
  cases event with
  | tick elapsed draw =>
      simp only [step, tick, recordTime]
      rw [countP_editHisVpn (fun date => decide (date = vpnDate)), hisVpn_getNowVpn]
  | getNowVpn draw => rw [step, hisVpn_getNowVpn]
  | setClickVpn vpn => rfl
  | startVpn draws =>
      simp only [step, startVpn, serverData_eq]
      split
      · rfl
      · split
        · rfl
        · rw [hisVpn_getNowVpn]
  | connectedPage =>
      simp only [step, showVpnState, takeClickVpn, if_true]
      split <;> rfl
  | onlineList smartList => rfl

/-! ## Whole sessions -/

theorem tracks_iff (someDate : vpnDate ≠ "") :
    data.Tracks vpnDate ↔
      data.Dated vpnDate ∧ data.hisVpn.countP (fun vpn => vpn.vpnDate = vpnDate) = 1 := by
  constructor
  · intro tracks
    exact ⟨(dated_iff someDate).mpr tracks.date, tracks.single⟩
  · rintro ⟨dated, single⟩
    refine ⟨(dated_iff someDate).mp dated, single, ?_⟩
    intro endTime draw
    have timed : { data with endTime := endTime }.Dated vpnDate := dated
    have date := (dated_iff someDate).mp timed draw
    have sorted : data.getHisListVpn.countP (fun vpn => vpn.vpnDate = vpnDate) = 1 :=
      (data.getHisListVpn_perm.countP_eq _).trans single
    have list : ({ data with endTime := endTime }.getNowVpn draw).2.getHisListVpn =
        data.getHisListVpn := by
      rw [getHisListVpn, hisVpn_getNowVpn, getHisListVpn]
    rw [recordTime, editHisVpn, date, endTime_getNowVpn, list]
    exact setConnectTime_eq_map endTime sorted

theorem toString_ne_empty (millis : Int) : toString millis ≠ "" := by
  cases millis with
  | ofNat number =>
      have written : toString (Int.ofNat number) = String.ofList (Nat.toDigits 10 number) := rfl
      intro empty
      have none := congrArg String.toList (written.symm.trans empty)
      rw [String.toList_ofList] at none
      exact Nat.toDigits_ne_nil none
  | negSucc number =>
      have written : toString (Int.negSucc number) = "-" ++ Nat.repr (number + 1) := rfl
      intro empty
      have none := congrArg String.toList (written.symm.trans empty)
      simp at none

theorem dated_addHisVpn (millis : Int) (draw : Nat) (data : DataUtils) :
    (data.addHisVpn millis draw).Dated (toString millis) ↔
      (data.getNowVpn draw).1.hasHost = true ∨ data.SmartDated (toString millis) := by
  have smart : (data.getNowVpn draw).2.SmartDated (toString millis) ↔
      data.SmartDated (toString millis) := by
    rw [SmartDated, smartList_getNowVpn, SmartDated]
  let vpn : HisBean := { (data.getNowVpn draw).1 with vpnDate := toString millis }
  have now : (data.addHisVpn millis draw).Dated (toString millis) ↔
      (data.getNowVpn draw).2.Carries (toString millis) vpn := dated_setNowVpn vpn
  have host : vpn.hasHost = (data.getNowVpn draw).1.hasHost := rfl
  rw [now, Carries, smart, host]
  split
  next found => exact iff_of_true rfl (.inl found)
  next missing => simp [missing]

theorem countP_addHisVpn (millis : Int) (draw : Nat) (data : DataUtils) :
    (data.addHisVpn millis draw).hisVpn.countP (fun vpn => vpn.vpnDate = toString millis) = 1 ↔
      ∀ vpn ∈ data.hisVpn, vpn.vpnDate ≠ toString millis := by
  simp only [addHisVpn, List.countP_append, List.countP_singleton, decide_true, if_true]
  rw [data.getHisListVpn_perm.countP_eq]
  simp [List.countP_eq_zero]

/-- The clock and the result page record into the entry of the session, and only there,
exactly if the session keeps its date. -/
theorem tracksSession_iff (millis : Int) (draw : Nat) (data : DataUtils)
    (events : List SessionEvent) :
    data.TracksSession millis draw events ↔ data.KeepsSession millis draw events := by
  have someDate := toString_ne_empty millis
  have step_iff : ∀ (state : DataUtils) (event : SessionEvent), state.Dated (toString millis) →
      ((state.step event).Dated (toString millis) ↔ state.Keeps (toString millis) event) :=
    fun _ event dated => dated_step someDate dated event
  constructor
  · intro tracks
    have each := fun first second split => (tracks_iff someDate).mp (tracks first second split)
    have start := each [] events rfl
    refine ⟨(countP_addHisVpn millis draw data).mp start.2,
      (dated_addHisVpn millis draw data).mp start.1, ?_⟩
    exact (Machine.throughout_iff_along step_iff start.1 events).mp
      (fun first second split => (each first second split).1)
  · intro kept first second split
    have start := (dated_addHisVpn millis draw data).mpr kept.host
    have single := (countP_addHisVpn millis draw data).mpr kept.fresh
    have counted : ∀ (state : DataUtils) (event : SessionEvent),
        state.hisVpn.countP (fun vpn => vpn.vpnDate = toString millis) = 1 →
          (state.step event).hisVpn.countP (fun vpn => vpn.vpnDate = toString millis) = 1 :=
      fun state event one => (countP_step _ state event).trans one
    refine (tracks_iff someDate).mpr ⟨?_, Machine.run_invariant counted single first⟩
    exact (Machine.throughout_iff_along step_iff start events).mpr kept.keeps first second split

/-- A smart server, one second of the session, and a click to disconnect. The click draws
the same server from the list, without the date, so the next second and the result page
record into no entry. -/
theorem not_tracksSession_smart :
    let smart : HisBean := { host := "h", isSmart := true }
    let data : DataUtils := { nowVpn := some smart, smartList := [smart] }
    let events : List SessionEvent := [.tick 1000 0, .startVpn ⟨0, 0, 0⟩, .tick 2000 0]
    let last := Machine.run step (data.addHisVpn 7 0) events
    (last.getNowVpn 0).1.vpnDate = "" ∧
      (last.showVpnState false 0).hisVpn =
        [{ smart with vpnDate := "7", connectTime := "00:00:01" }] ∧
      last.endTime = "00:00:02" ∧ ¬ data.TracksSession 7 0 events := by
  intro smart data events last
  have date : (last.getNowVpn 0).1.vpnDate = "" := by decide +kernel
  refine ⟨date, by decide +kernel, by decide +kernel, ?_⟩
  intro tracks
  have tracked : last.Tracks (toString (7 : Int)) := tracks events [] (List.append_nil _).symm
  have dated := tracked.date 0
  rw [date] at dated
  exact toString_ne_empty 7 dated.symm

end DataUtils

end AlienConnection.Ui
