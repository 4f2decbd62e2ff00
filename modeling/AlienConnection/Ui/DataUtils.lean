import AlienConnection.Acl.Acl
import AlienConnection.Ui.SharedProfile
import Mathlib.Data.List.Sort

/-!
# The chosen server and the history of connections

`DataUtils` keeps both in the preferences. The chosen server is read with `getNowVpn`, which
draws one from the smart list when there is none with a host, and a session is told from
the others by the date that `addHisVpn` gives to the chosen server and to its entry.
-/

namespace AlienConnection.Ui

structure HisVpn where
  vpnDate : String := ""
  connectTime : String := ""
  deriving DecidableEq, Repr

structure HisBean extends VInForBean, HisVpn
  deriving DecidableEq, Repr

def isBlank (text : String) : Bool := text.toList.all Acl.isWhitespace

def HisBean.hasHost (vpn : HisBean) : Bool := !isBlank vpn.host

/-- The first entry with the date gets the time. -/
def setConnectTime (vpnDate endTime : String) : List HisBean → List HisBean
  | [] => []
  | vpn :: rest =>
      if vpn.vpnDate = vpnDate then { vpn with connectTime := endTime } :: rest
      else vpn :: setConnectTime vpnDate endTime rest

/-- `sortedByDescending { it.vpnDate }`, which keeps the order of equal dates. -/
def sortedByDate (list : List HisBean) : List HisBean :=
  list.insertionSort (fun first second => second.vpnDate ≤ first.vpnDate)

def twoDigits (number : Nat) : String :=
  if number < 10 then "0" ++ toString number else toString number

/-- The format `HH:mm:ss`. The time zone `+8` is not one that is understood, and stands for
Greenwich. -/
def formatTime (millis : Int) : String :=
  let seconds := (millis / 1000 % 86400).toNat
  twoDigits (seconds / 3600) ++ ":" ++ twoDigits (seconds / 60 % 60) ++ ":" ++
    twoDigits (seconds % 60)

structure DataUtils where
  /-- Nothing for a text that is not a server, as the empty one. -/
  nowVpn : Option HisBean := none
  /-- The server picked while connected. -/
  clickVpn : Option HisBean := none
  /-- The smart servers of `getOnlineListVpn`, none when that is null. -/
  smartList : List HisBean := []
  hisVpn : List HisBean := []
  endTime : String := "00:00:00"

namespace DataUtils

def getSmartList (draw : Nat) (data : DataUtils) : HisBean :=
  match data.smartList[draw % data.smartList.length]? with
  | some smart => { smart with isSmart := true }
  | none => { isSmart := true }

/-- The server of `nowVpn`, if it has a host. -/
def chosen (data : DataUtils) : Option HisBean := data.nowVpn.filter HisBean.hasHost

/-- The server, and the preferences after the call. The server that is drawn is not asked
for its host. -/
def getNowVpn (draw : Nat) (data : DataUtils) : HisBean × DataUtils :=
  match data.chosen with
  | some vpn => (vpn, data)
  | none => (data.getSmartList draw, { data with nowVpn := some (data.getSmartList draw) })

def getHisListVpn (data : DataUtils) : List HisBean := sortedByDate data.hisVpn

def addHisVpn (millis : Int) (draw : Nat) (data : DataUtils) : DataUtils :=
  let now := data.getNowVpn draw
  let vpn := { now.1 with vpnDate := toString millis }
  { now.2 with nowVpn := some vpn, hisVpn := data.getHisListVpn ++ [vpn] }

def editHisVpn (vpnDate : String) (data : DataUtils) : DataUtils :=
  { data with hisVpn := setConnectTime vpnDate data.endTime data.getHisListVpn }

/-- `editHisVpn(getNowVpn().vpnDate)`, as the clock and the result page have it. -/
def recordTime (draw : Nat) (data : DataUtils) : DataUtils :=
  (data.getNowVpn draw).2.editHisVpn (data.getNowVpn draw).1.vpnDate

def tick (elapsed : Int) (draw : Nat) (data : DataUtils) : DataUtils :=
  { data with endTime := formatTime elapsed }.recordTime draw

structure Draws where
  before : Nat
  smart : Nat
  after : Nat

/-- The server that `setSkServerData` puts into the profile. A smart one is drawn anew. -/
def serverData (draws : Draws) (data : DataUtils) : HisBean × DataUtils :=
  let now := data.getNowVpn draws.before
  if now.1.isSmart then
    { now.2 with nowVpn := some (now.2.getSmartList draws.smart) }.getNowVpn draws.after
  else now

/-- `startVpn`, as far as the preferences go. Without a list of servers it loads one and
returns. -/
def startVpn (draws : Draws) (data : DataUtils) : DataUtils :=
  if data.smartList = [] then data else (data.serverData draws).2

/-- The server picked while connected becomes the chosen one. -/
def takeClickVpn (data : DataUtils) : DataUtils :=
  match data.clickVpn with
  | some vpn => { data with nowVpn := some vpn, clickVpn := none }
  | none => data

/-- The result page, which records the time when it is shown for the end of a session. -/
def showVpnState (connected : Bool) (draw : Nat) (data : DataUtils) : DataUtils :=
  if connected then { data with endTime := "00:00:00" }.takeClickVpn
  else (data.recordTime draw).takeClickVpn

/-! ## Reading the chosen server -/

theorem getNowVpn_of_some {data : DataUtils} {vpn : HisBean} (found : data.chosen = some vpn)
    (draw : Nat) : data.getNowVpn draw = (vpn, data) := by
  rw [getNowVpn, found]

theorem getNowVpn_of_none {data : DataUtils} (missing : data.chosen = none) (draw : Nat) :
    data.getNowVpn draw =
      (data.getSmartList draw, { data with nowVpn := some (data.getSmartList draw) }) := by
  rw [getNowVpn, missing]

/-- With a chosen server, a turn of the clock edits the entry of its date. -/
theorem tick_of_some {data : DataUtils} {vpn : HisBean} (found : data.chosen = some vpn)
    (elapsed : Int) (draw : Nat) :
    data.tick elapsed draw =
      { data with endTime := formatTime elapsed }.editHisVpn vpn.vpnDate := by
  have timed : { data with endTime := formatTime elapsed }.chosen = some vpn := found
  rw [tick, recordTime, getNowVpn_of_some timed]

/-- The call changes at most the chosen server. -/
theorem getNowVpn_frame (draw : Nat) (data : DataUtils) :
    ∃ nowVpn, (data.getNowVpn draw).2 = { data with nowVpn := nowVpn } := by
  cases found : data.chosen with
  | some vpn => exact ⟨data.nowVpn, by rw [getNowVpn_of_some found]⟩
  | none => exact ⟨_, by rw [getNowVpn_of_none found]⟩

theorem smartList_getNowVpn (draw : Nat) (data : DataUtils) :
    (data.getNowVpn draw).2.smartList = data.smartList := by
  obtain ⟨nowVpn, same⟩ := data.getNowVpn_frame draw
  rw [same]

theorem hisVpn_getNowVpn (draw : Nat) (data : DataUtils) :
    (data.getNowVpn draw).2.hisVpn = data.hisVpn := by
  obtain ⟨nowVpn, same⟩ := data.getNowVpn_frame draw
  rw [same]

theorem endTime_getNowVpn (draw : Nat) (data : DataUtils) :
    (data.getNowVpn draw).2.endTime = data.endTime := by
  obtain ⟨nowVpn, same⟩ := data.getNowVpn_frame draw
  rw [same]

theorem endTime_tick (elapsed : Int) (draw : Nat) (data : DataUtils) :
    (data.tick elapsed draw).endTime = formatTime elapsed := by
  rw [tick, recordTime, editHisVpn, endTime_getNowVpn]

/-- Every draw is a server of the list, and every server of the list is a draw. -/
theorem forall_getSmartList_iff {data : DataUtils} (available : data.smartList ≠ [])
    {Holds : HisBean → Prop} :
    (∀ draw, Holds (data.getSmartList draw)) ↔
      ∀ smart ∈ data.smartList, Holds { smart with isSmart := true } := by
  have positive : 0 < data.smartList.length := List.length_pos_iff.mpr available
  constructor
  · intro draws smart member
    obtain ⟨draw, inside, found⟩ := List.mem_iff_getElem.mp member
    have drawn := draws draw
    rw [getSmartList, Nat.mod_eq_of_lt inside, List.getElem?_eq_getElem inside, found] at drawn
    exact drawn
  · intro servers draw
    have inside := Nat.mod_lt draw positive
    rw [getSmartList, List.getElem?_eq_getElem inside]
    exact servers _ (List.getElem_mem inside)

/-! ## Editing the history -/

theorem getHisListVpn_perm (data : DataUtils) : data.getHisListVpn.Perm data.hisVpn :=
  List.perm_insertionSort _ _

def withTime (vpnDate endTime : String) (vpn : HisBean) : HisBean :=
  if vpn.vpnDate = vpnDate then { vpn with connectTime := endTime } else vpn

theorem map_withTime_of_not_mem {vpnDate : String} (endTime : String) {list : List HisBean}
    (absent : ∀ vpn ∈ list, vpn.vpnDate ≠ vpnDate) :
    list.map (withTime vpnDate endTime) = list := by
  conv_rhs => rw [← List.map_id list]
  apply List.map_congr_left
  intro vpn member
  exact if_neg (absent vpn member)

/-- With one entry of the date, the edit is an edit of that entry alone. -/
theorem setConnectTime_eq_map {vpnDate : String} (endTime : String) {list : List HisBean}
    (single : list.countP (fun vpn => vpn.vpnDate = vpnDate) = 1) :
    setConnectTime vpnDate endTime list = list.map (withTime vpnDate endTime) := by
  induction list with
  | nil => rfl
  | cons vpn rest ih =>
      by_cases dated : vpn.vpnDate = vpnDate
      · have absent : ∀ other ∈ rest, other.vpnDate ≠ vpnDate := by
          simpa [List.countP_cons, dated, List.countP_eq_zero] using single
        rw [setConnectTime, if_pos dated, List.map_cons, map_withTime_of_not_mem endTime absent,
          withTime, if_pos dated]
      · have later : rest.countP (fun vpn => vpn.vpnDate = vpnDate) = 1 := by
          simpa [List.countP_cons, dated] using single
        rw [setConnectTime, if_neg dated, ih later, List.map_cons, withTime, if_neg dated]

/-- No edit changes a date. -/
theorem map_vpnDate_setConnectTime (vpnDate endTime : String) (list : List HisBean) :
    (setConnectTime vpnDate endTime list).map (fun vpn => vpn.vpnDate) =
      list.map (fun vpn => vpn.vpnDate) := by
  induction list with
  | nil => rfl
  | cons vpn rest ih =>
      rw [setConnectTime]
      split
      · rfl
      · rw [List.map_cons, ih, List.map_cons]

/-- So an edit keeps the number of entries that a test of the date selects. -/
theorem countP_setConnectTime (test : String → Bool) (vpnDate endTime : String)
    (list : List HisBean) :
    (setConnectTime vpnDate endTime list).countP (fun vpn => test vpn.vpnDate) =
      list.countP (fun vpn => test vpn.vpnDate) := by
  have dates := congrArg (List.countP test) (map_vpnDate_setConnectTime vpnDate endTime list)
  rwa [List.countP_map, List.countP_map] at dates

theorem countP_editHisVpn (test : String → Bool) (edited : String) (data : DataUtils) :
    (data.editHisVpn edited).hisVpn.countP (fun vpn => test vpn.vpnDate) =
      data.hisVpn.countP (fun vpn => test vpn.vpnDate) :=
  (countP_setConnectTime test edited data.endTime data.getHisListVpn).trans
    (data.getHisListVpn_perm.countP_eq _)

end DataUtils

end AlienConnection.Ui
