import AlienConnection.Library.Decimal
import AlienConnection.Library.LinkedMap
import AlienConnection.Ui.SessionHistory
import Mathlib.Algebra.BigOperators.Group.List.Basic
import Mathlib.Data.List.MinMax

/-!
# The total of the day

The history page adds up the times of the entries of today when it opens. If the running
session is among them, the page then refreshes itself every second, and adds the time of the
session to the total of the opening, in which that session may already be counted.
-/

namespace AlienConnection.Ui

open Library

structure HistoryRuntime where
  /-- The digits of `toLong`. -/
  digit : Char → Option Nat
  readsAscii : Decimal.ReadsAscii digit
  /-- `SimpleDateFormat("MM/dd yyyy")`, in the time zone of the phone. -/
  dateText : Int → String
  /-- The hours, minutes and seconds that `SimpleDateFormat("HH:mm:ss")` reads, nothing when
  it throws. -/
  parseTime : String → Option (Fin 24 × Fin 60 × Fin 60)

def format02 : Int → String
  | .ofNat number => twoDigits number
  | .negSucc number => toString (Int.negSucc number)

def formatClock (hours minutes seconds : Int) : String :=
  format02 hours ++ ":" ++ format02 minutes ++ ":" ++ format02 seconds

def formatTotal (seconds : Nat) : String :=
  formatClock ↑(seconds / 3600) ↑(seconds % 3600 / 60) ↑(seconds % 60)

namespace HistoryRuntime

variable (runtime : HistoryRuntime)

def toLong (text : List Char) : Option Int := Decimal.parseLong runtime.digit text

def isToday (millis : Int) (vpn : HisBean) : Bool :=
  (runtime.toLong vpn.vpnDate.toList).map runtime.dateText = some (runtime.dateText millis)

def duration (vpn : HisBean) : Nat :=
  match runtime.parseTime vpn.connectTime with
  | some (hours, minutes, seconds) => hours.val * 3600 + minutes.val * 60 + seconds.val
  | none => 0

def serverCount (list : List HisBean) : List (String × Nat) :=
  list.foldl (fun counts vpn =>
    LinkedMap.put vpn.getName ((LinkedMap.get vpn.getName counts).getD 0 + 1) counts) []

/-- The total and the most frequent server. A date that is not a number throws. -/
def getConnectionStats (millis : Int) (data : DataUtils) : Option (String × Option String) :=
  if data.getHisListVpn.all (fun vpn => (runtime.toLong vpn.vpnDate.toList).isSome) then
    let todayData := sortedByDate (data.getHisListVpn.filter (runtime.isToday millis))
    some (formatTotal (todayData.map runtime.duration).sum,
      ((serverCount todayData).argmax Prod.snd).map Prod.fst)
  else none

def readTime (time : String) : Int :=
  match time.toList.splitOn ':' with
  | [hours, minutes, seconds] =>
      (runtime.toLong hours).getD 0 * 3600 + (runtime.toLong minutes).getD 0 * 60 +
        (runtime.toLong seconds).getD 0
  | _ => 0

def addTimes (times : List String) : String :=
  let totalSeconds := (times.map runtime.readTime).sum
  formatClock (totalSeconds.tdiv 3600) ((totalSeconds.tdiv 60).tmod 60) (totalSeconds.tmod 60)

end HistoryRuntime

/-- The phone while it is connected: a chosen server with a host, and a time of the clock in
`endTime`. A list of the Java library has less than 2 ^ 31 items. -/
structure RunningSession where
  data : DataUtils
  vpn : HisBean
  chosen : data.chosen = some vpn
  timed : ∃ elapsed, data.endTime = formatTime elapsed
  bounded : data.hisVpn.length < 2 ^ 31

theorem length_editHisVpn (vpnDate : String) (data : DataUtils) :
    (data.editHisVpn vpnDate).hisVpn.length = data.hisVpn.length := by
  have dates := congrArg List.length
    (DataUtils.map_vpnDate_setConnectTime vpnDate data.endTime data.getHisListVpn)
  rw [List.length_map, List.length_map] at dates
  exact dates.trans data.getHisListVpn_perm.length_eq

namespace RunningSession

def edit (session : RunningSession) : RunningSession where
  data := session.data.editHisVpn session.vpn.vpnDate
  vpn := session.vpn
  chosen := session.chosen
  timed := session.timed
  bounded := (length_editHisVpn _ _).trans_lt session.bounded

def tick (elapsed : Int) (draw : Nat) (session : RunningSession) : RunningSession where
  data := session.data.tick elapsed draw
  vpn := session.vpn
  chosen := by
    rw [DataUtils.tick_of_some session.chosen]
    exact session.chosen
  timed := ⟨elapsed, by rw [DataUtils.tick_of_some session.chosen]; rfl⟩
  bounded := by
    rw [DataUtils.tick_of_some session.chosen, length_editHisVpn]
    exact session.bounded

def listed (session : RunningSession) : Bool :=
  session.data.hisVpn.any (fun vpn => vpn.vpnDate = session.vpn.vpnDate)

end RunningSession

structure HistoryPage where
  session : RunningSession
  /-- The total of the opening. -/
  totalTime : String
  /-- The total on the screen. -/
  shown : String

def initAdapter (runtime : HistoryRuntime) (millis : Int) (session : RunningSession) :
    Option HistoryPage :=
  (runtime.getConnectionStats millis session.data).map (fun stats =>
    { session := session, totalTime := stats.1, shown := stats.1 })

inductive PageEvent where
  /-- A turn of the clock of the home screen. -/
  | tick (elapsed : Int) (draw : Nat)
  /-- A turn of the loop of `getEndTIme`, at a time. -/
  | refresh (millis : Int)

namespace HistoryPage

variable (runtime : HistoryRuntime)

/-- The loop of `getEndTIme`. It runs for the item of the session. -/
def getEndTIme (page : HistoryPage) : HistoryPage :=
  if page.session.listed then
    { page with
      session := page.session.edit
      shown := runtime.addTimes [page.totalTime, page.session.data.endTime] }
  else page

def step (page : HistoryPage) : PageEvent → HistoryPage
  | .tick elapsed draw => { page with session := page.session.tick elapsed draw }
  | .refresh _ => page.getEndTIme runtime

end HistoryPage

/-! ## The total that is due -/

namespace RunningSession

variable (runtime : HistoryRuntime)

def seconds (session : RunningSession) : Nat := (runtime.readTime session.data.endTime).toNat

/-- The entries of today, the running session with `endTime` and the others with their
`connectTime`. -/
def dayTotal (millis : Int) (session : RunningSession) : Nat :=
  ((session.data.hisVpn.filter (runtime.isToday millis)).map (fun vpn =>
    if vpn.vpnDate = session.vpn.vpnDate then session.seconds runtime
    else runtime.duration vpn)).sum

end RunningSession

/-- A value that the page shows is the total that is due then. -/
def HistoryPage.ShowsTotal (runtime : HistoryRuntime) (page : HistoryPage) : PageEvent → Prop
  | .tick _ _ => True
  | .refresh millis => page.session.listed = true →
      (page.getEndTIme runtime).shown =
        formatTotal ((page.getEndTIme runtime).session.dayTotal runtime millis)

def ShowsTotals (runtime : HistoryRuntime) (millis : Int) (session : RunningSession)
    (events : List PageEvent) : Prop :=
  ∀ page, initAdapter runtime millis session = some page →
    page.shown = formatTotal (session.dayTotal runtime millis) ∧
      Machine.Along (HistoryPage.step runtime) (HistoryPage.ShowsTotal runtime) page events

/-! ## When each session counts once -/

def HistoryRuntime.timeOf (runtime : HistoryRuntime) (millis : Int) (selects : HisBean → Bool)
    (list : List HisBean) : Nat :=
  ((list.filter (fun vpn => runtime.isToday millis vpn && selects vpn)).map runtime.duration).sum

namespace RunningSession

variable (runtime : HistoryRuntime)

def own (session : RunningSession) (vpn : HisBean) : Bool := vpn.vpnDate = session.vpn.vpnDate

def recorded (millis : Int) (session : RunningSession) : Nat :=
  runtime.timeOf millis session.own session.data.hisVpn

def others (millis : Int) (session : RunningSession) : Nat :=
  runtime.timeOf millis (fun vpn => !session.own vpn) session.data.hisVpn

def entries (millis : Int) (session : RunningSession) : Nat :=
  session.data.hisVpn.countP (fun vpn => runtime.isToday millis vpn && session.own vpn)

end RunningSession

/-- On the day of the opening, what the session had recorded then must be all that its entry
counts beside `endTime`. On another day the whole total must be right by chance. -/
def HistoryPage.CountsOnce (runtime : HistoryRuntime) (millis : Int) (opened : RunningSession)
    (page : HistoryPage) : PageEvent → Prop
  | .tick _ _ => True
  | .refresh now => page.session.listed = true →
      let time := page.session.seconds runtime
      if runtime.dateText now = runtime.dateText millis then
        opened.recorded runtime millis + time = opened.entries runtime millis * time
      else
        opened.others runtime millis + opened.recorded runtime millis + time =
          opened.others runtime now + opened.entries runtime now * time

def CountsOnce (runtime : HistoryRuntime) (millis : Int) (session : RunningSession)
    (events : List PageEvent) : Prop :=
  ∀ page, initAdapter runtime millis session = some page →
    session.recorded runtime millis = session.entries runtime millis * session.seconds runtime ∧
      Machine.Along (HistoryPage.step runtime) (HistoryPage.CountsOnce runtime millis session)
        page events

/-! ## Times as texts -/

theorem toList_twoDigits (number : Nat) :
    (twoDigits number).toList =
      if number < 10 then '0' :: Nat.toDigits 10 number else Nat.toDigits 10 number := by
  have written : (toString number).toList = Nat.toDigits 10 number := String.toList_ofList
  rw [twoDigits]
  split
  · rw [String.toList_append, written]
    rfl
  · exact written

theorem isDigit_twoDigits {number : Nat} {char : Char}
    (member : char ∈ (twoDigits number).toList) : char.isDigit = true := by
  rw [toList_twoDigits] at member
  have digit : char ∈ Nat.toDigits 10 number → char.isDigit = true :=
    fun inside => Nat.isDigit_of_mem_toDigits (by omega) (by omega) inside
  split at member
  · rcases List.mem_cons.mp member with zero | inside
    · rw [zero]
      rfl
    · exact digit inside
  · exact digit member

theorem digitsFrom_twoDigits {digit : Char → Option Nat} (ascii : Decimal.ReadsAscii digit)
    (number : Nat) : Decimal.digitsFrom digit 0 (twoDigits number).toList = some number := by
  rw [toList_twoDigits]
  split
  · have zero : digit '0' = some 0 := ascii 0 (by omega)
    simp only [Decimal.digitsFrom, zero]
    exact Decimal.digitsFrom_toDigits ascii number
  · exact Decimal.digitsFrom_toDigits ascii number

theorem splitOn_formatClock (hours minutes seconds : Nat) :
    (formatClock hours minutes seconds).toList.splitOn ':' =
      [(twoDigits hours).toList, (twoDigits minutes).toList, (twoDigits seconds).toList] := by
  have joined : (formatClock hours minutes seconds).toList = [':'].intercalate
      [(twoDigits hours).toList, (twoDigits minutes).toList, (twoDigits seconds).toList] := by
    simp [formatClock, format02, List.intercalate, List.intersperse]
  have plain : ∀ number, ':' ∉ (twoDigits number).toList :=
    fun number member => nomatch isDigit_twoDigits member
  rw [joined]
  apply List.splitOn_intercalate
  · simp [plain]
  · simp

namespace HistoryRuntime

variable {runtime : HistoryRuntime}

theorem toLong_twoDigits {number : Nat} (small : number < 2 ^ 63) :
    runtime.toLong (twoDigits number).toList = some (number : Int) := by
  refine Decimal.parseSigned_of_isDigit ?_ (fun _ => isDigit_twoDigits)
    (digitsFrom_twoDigits runtime.readsAscii number) small
  rw [toList_twoDigits]
  split
  · exact List.cons_ne_nil _ _
  · exact Nat.toDigits_ne_nil

theorem readTime_formatTotal {seconds : Nat} (small : seconds < 2 ^ 63) :
    runtime.readTime (formatTotal seconds) = seconds := by
  rw [readTime, formatTotal, splitOn_formatClock]
  simp only [@toLong_twoDigits runtime (seconds / 3600) (by omega),
    @toLong_twoDigits runtime (seconds % 3600 / 60) (by omega),
    @toLong_twoDigits runtime (seconds % 60) (by omega), Option.getD_some]
  omega

theorem formatTotal_injective (runtime : HistoryRuntime) : Function.Injective formatTotal := by
  have digits : ∀ {first second : Nat}, (twoDigits first).toList = (twoDigits second).toList →
      first = second := by
    intro first second same
    have read := digitsFrom_twoDigits runtime.readsAscii first
    rw [same, digitsFrom_twoDigits runtime.readsAscii second] at read
    exact (Option.some.inj read).symm
  intro first second same
  have parts := congrArg (fun text => text.toList.splitOn ':') same
  simp only [formatTotal, splitOn_formatClock, List.cons.injEq, and_true] at parts
  have hours := digits parts.1
  have minutes := digits parts.2.1
  have seconds := digits parts.2.2
  omega

theorem addTimes_formatTotal {first second : Nat} (small : first < 2 ^ 63)
    (smaller : second < 2 ^ 63) :
    runtime.addTimes [formatTotal first, formatTotal second] = formatTotal (first + second) := by
  have total : ([formatTotal first, formatTotal second].map runtime.readTime).sum =
      ((first + second : Nat) : Int) := by
    simp [readTime_formatTotal small, readTime_formatTotal smaller]
  have minutes : ((first + second) / 60) % 60 = (first + second) % 3600 / 60 := by omega
  rw [addTimes, total, formatTotal, ← minutes]
  rfl

end HistoryRuntime

theorem formatTime_eq_formatTotal (elapsed : Int) :
    formatTime elapsed = formatTotal (elapsed / 1000 % 86400).toNat := by
  have minutes : ∀ seconds : Nat, seconds / 60 % 60 = seconds % 3600 / 60 := by omega
  rw [formatTime, minutes]
  rfl

/-- The time of a session is less than a day. -/
theorem RunningSession.endTime_eq (runtime : HistoryRuntime) (session : RunningSession) :
    session.data.endTime = formatTotal (session.seconds runtime) ∧
      session.seconds runtime < 2 ^ 63 := by
  obtain ⟨elapsed, timed⟩ := session.timed
  have small : (elapsed / 1000 % 86400).toNat < 2 ^ 63 := by omega
  have same : session.seconds runtime = (elapsed / 1000 % 86400).toNat := by
    rw [seconds, timed, formatTime_eq_formatTotal, HistoryRuntime.readTime_formatTotal small]
    rfl
  rw [same, timed, formatTime_eq_formatTotal]
  exact ⟨rfl, small⟩

/-! ## The sums -/

namespace HistoryRuntime

variable {runtime : HistoryRuntime} {millis : Int}

theorem isToday_congr {now : Int} (same : runtime.dateText now = runtime.dateText millis) :
    runtime.isToday now = runtime.isToday millis := by
  funext vpn
  rw [isToday, isToday, same]

theorem timeOf_perm (selects : HisBean → Bool) {first second : List HisBean}
    (same : first.Perm second) :
    runtime.timeOf millis selects first = runtime.timeOf millis selects second :=
  ((same.filter _).map _).sum_eq

/-- The selected entries and the others together. -/
theorem timeOf_add (selects : HisBean → Bool) (list : List HisBean) :
    runtime.timeOf millis selects list + runtime.timeOf millis (fun vpn => !selects vpn) list =
      ((list.filter (runtime.isToday millis)).map runtime.duration).sum := by
  induction list with
  | nil => rfl
  | cons vpn rest ih =>
      simp only [timeOf] at ih ⊢
      cases today : runtime.isToday millis vpn <;> cases chosen : selects vpn <;>
        simp [today, chosen] <;> omega

/-- Edits of the entries of a date do not change what the others count. -/
theorem timeOf_setConnectTime (vpnDate endTime : String) (list : List HisBean) :
    runtime.timeOf millis (fun vpn => !decide (vpn.vpnDate = vpnDate))
        (setConnectTime vpnDate endTime list) =
      runtime.timeOf millis (fun vpn => !decide (vpn.vpnDate = vpnDate)) list := by
  induction list with
  | nil => rfl
  | cons vpn rest ih =>
      rw [setConnectTime]
      simp only [timeOf] at ih ⊢
      split
      next dated => simp [dated]
      next other =>
        cases today : runtime.isToday millis vpn <;> simp [today, other, ih]

theorem duration_lt (vpn : HisBean) : runtime.duration vpn < 86400 := by
  rw [duration]
  split
  next hours minutes seconds _ => omega
  next => omega

theorem sum_duration_le (list : List HisBean) :
    (list.map runtime.duration).sum ≤ list.length * 86400 := by
  induction list with
  | nil => simp
  | cons vpn rest ih =>
      have one := @duration_lt runtime vpn
      rw [List.map_cons, List.sum_cons, List.length_cons]
      omega

end HistoryRuntime

namespace RunningSession

variable (runtime : HistoryRuntime) (session : RunningSession)

/-- The total that is due, with the entries of the session taken out. -/
theorem dayTotal_eq (millis : Int) :
    session.dayTotal runtime millis =
      session.others runtime millis +
        session.entries runtime millis * session.seconds runtime := by
  rw [dayTotal, others, entries, HistoryRuntime.timeOf]
  generalize session.seconds runtime = time
  induction session.data.hisVpn with
  | nil => simp
  | cons vpn rest ih =>
      cases today : runtime.isToday millis vpn <;>
        by_cases dated : vpn.vpnDate = session.vpn.vpnDate <;>
        simp [today, own, dated, Nat.add_mul] at ih ⊢ <;> omega

structure Continues (opened session : RunningSession) : Prop where
  others : ∀ millis, session.others runtime millis = opened.others runtime millis
  entries : ∀ millis, session.entries runtime millis = opened.entries runtime millis

variable {runtime} {session}

theorem Continues.refl (session : RunningSession) : session.Continues runtime session :=
  ⟨fun _ => rfl, fun _ => rfl⟩

/-- An edit of the entry of the session keeps everything else. -/
theorem Continues.edited {opened next : RunningSession} (kept : opened.Continues runtime session)
    (vpn : next.vpn = session.vpn) {endTime : String}
    (hisVpn : next.data.hisVpn =
      setConnectTime session.vpn.vpnDate endTime session.data.getHisListVpn) :
    opened.Continues runtime next := by
  have own : next.own = session.own := by
    funext entry
    rw [RunningSession.own, RunningSession.own, vpn]
  have perm := session.data.getHisListVpn_perm
  refine ⟨fun millis => ?_, fun millis => ?_⟩
  · rw [← kept.others, RunningSession.others, own, hisVpn]
    exact (HistoryRuntime.timeOf_setConnectTime _ _ _).trans (HistoryRuntime.timeOf_perm _ perm)
  · rw [← kept.entries, RunningSession.entries, own, hisVpn]
    exact (DataUtils.countP_setConnectTime (fun date =>
      decide ((runtime.toLong date.toList).map runtime.dateText = some (runtime.dateText millis)) &&
        decide (date = session.vpn.vpnDate)) _ _ _).trans (perm.countP_eq _)

theorem Continues.edit {opened : RunningSession} (kept : opened.Continues runtime session) :
    opened.Continues runtime session.edit :=
  kept.edited rfl rfl

theorem Continues.tick {opened : RunningSession} (kept : opened.Continues runtime session)
    (elapsed : Int) (draw : Nat) : opened.Continues runtime (session.tick elapsed draw) := by
  have written := congrArg DataUtils.hisVpn (DataUtils.tick_of_some session.chosen elapsed draw)
  exact kept.edited rfl written

end RunningSession

/-! ## Whole pages -/

variable {runtime : HistoryRuntime} {millis : Int}

/-- The total of the opening: the entries of today with what they have recorded. -/
theorem getConnectionStats_total {data : DataUtils} {stats : String × Option String}
    (opened : runtime.getConnectionStats millis data = some stats) :
    stats.1 =
      formatTotal ((data.hisVpn.filter (runtime.isToday millis)).map runtime.duration).sum := by
  rw [HistoryRuntime.getConnectionStats] at opened
  split at opened
  next =>
    have sorted : (sortedByDate (data.getHisListVpn.filter (runtime.isToday millis))).Perm
        (data.hisVpn.filter (runtime.isToday millis)) :=
      (List.perm_insertionSort _ _).trans (data.getHisListVpn_perm.filter _)
    rw [← Option.some.inj opened]
    exact congrArg formatTotal (sorted.map _).sum_eq
  next => cases opened

namespace RunningSession

variable (runtime) in
def opening (millis : Int) (session : RunningSession) : Nat :=
  session.others runtime millis + session.recorded runtime millis

theorem opening_eq (session : RunningSession) :
    session.opening runtime millis =
      ((session.data.hisVpn.filter (runtime.isToday millis)).map runtime.duration).sum := by
  rw [opening, Nat.add_comm]
  exact HistoryRuntime.timeOf_add _ _

theorem opening_lt (session : RunningSession) : session.opening runtime millis < 2 ^ 63 := by
  have bound := @HistoryRuntime.sum_duration_le runtime
    (session.data.hisVpn.filter (runtime.isToday millis))
  have fewer := List.length_filter_le (runtime.isToday millis) session.data.hisVpn
  have bounded := session.bounded
  rw [opening_eq]
  omega

end RunningSession

structure HistoryPage.OpenedFor (runtime : HistoryRuntime) (millis : Int)
    (opened : RunningSession) (page : HistoryPage) : Prop where
  continues : opened.Continues runtime page.session
  totalTime : page.totalTime = formatTotal (opened.opening runtime millis)

namespace HistoryPage

theorem openedFor_of_initAdapter {session : RunningSession} {page : HistoryPage}
    (opened : initAdapter runtime millis session = some page) :
    page.shown = formatTotal (session.opening runtime millis) ∧
      page.OpenedFor runtime millis session := by
  obtain ⟨stats, found, same⟩ := Option.map_eq_some_iff.mp opened
  have total := getConnectionStats_total found
  rw [← RunningSession.opening_eq] at total
  subst same
  exact ⟨total, RunningSession.Continues.refl session, total⟩

theorem OpenedFor.step {opened : RunningSession} {page : HistoryPage}
    (kept : page.OpenedFor runtime millis opened) (event : PageEvent) :
    (page.step runtime event).OpenedFor runtime millis opened := by
  cases event with
  | tick elapsed draw => exact ⟨kept.continues.tick elapsed draw, kept.totalTime⟩
  | refresh now =>
      rw [HistoryPage.step, getEndTIme]
      split
      · exact ⟨kept.continues.edit, kept.totalTime⟩
      · exact kept

/-- A refreshed total is right exactly if the sums are. -/
theorem showsTotal_iff {opened : RunningSession} {page : HistoryPage}
    (kept : page.OpenedFor runtime millis opened) (event : PageEvent) :
    page.ShowsTotal runtime event ↔ page.CountsOnce runtime millis opened event := by
  cases event with
  | tick elapsed draw => exact Iff.rfl
  | refresh now =>
      rw [ShowsTotal, CountsOnce]
      apply forall_congr'
      intro listed
      obtain ⟨endTime, small⟩ := page.session.endTime_eq runtime
      have edited := kept.continues.edit
      have seconds : page.session.edit.seconds runtime = page.session.seconds runtime := rfl
      have due : page.session.edit.dayTotal runtime now =
          opened.others runtime now +
            opened.entries runtime now * page.session.seconds runtime := by
        rw [RunningSession.dayTotal_eq, edited.others, edited.entries, seconds]
      have turn : page.getEndTIme runtime =
          { page with
            session := page.session.edit
            shown := runtime.addTimes [page.totalTime, page.session.data.endTime] } :=
        if_pos listed
      have shown : (page.getEndTIme runtime).shown =
          formatTotal (opened.opening runtime millis + page.session.seconds runtime) := by
        rw [turn, kept.totalTime, endTime]
        exact HistoryRuntime.addTimes_formatTotal opened.opening_lt small
      rw [shown, turn, due, (HistoryRuntime.formatTotal_injective runtime).eq_iff]
      split
      next same =>
        have today := runtime.isToday_congr same
        rw [RunningSession.opening, RunningSession.others, RunningSession.others,
          RunningSession.entries, RunningSession.entries, HistoryRuntime.timeOf,
          HistoryRuntime.timeOf, today]
        omega
      next => exact Iff.rfl

end HistoryPage

/-- Every total that the page shows is the one that is due exactly if the session is counted
once in each. -/
theorem showsTotals_iff_countsOnce (runtime : HistoryRuntime) (millis : Int)
    (session : RunningSession) (events : List PageEvent) :
    ShowsTotals runtime millis session events ↔ CountsOnce runtime millis session events := by
  apply forall_congr'
  intro page
  apply forall_congr'
  intro opened
  obtain ⟨shown, openedFor⟩ := HistoryPage.openedFor_of_initAdapter opened
  apply and_congr
  · rw [shown, (HistoryRuntime.formatTotal_injective runtime).eq_iff, RunningSession.dayTotal_eq,
      RunningSession.opening]
    omega
  · have kept : ∀ (page : HistoryPage) (event : PageEvent),
        page.OpenedFor runtime millis session →
          (page.step runtime event).OpenedFor runtime millis session :=
      fun _ event openedFor => openedFor.step event
    have same : ∀ (page : HistoryPage) (event : PageEvent),
        page.OpenedFor runtime millis session →
          (page.ShowsTotal runtime event ↔ page.CountsOnce runtime millis session event) :=
      fun _ event openedFor => HistoryPage.showsTotal_iff openedFor event
    exact Machine.along_congr kept same openedFor events

def plainHistoryRuntime : HistoryRuntime where
  digit char := if char.isDigit then some (char.toNat - '0'.toNat) else none
  readsAscii := by
    unfold Decimal.ReadsAscii
    decide
  dateText millis := toString (millis / 86400000)
  parseTime text :=
    match (text.toList.splitOn ':').map (Decimal.digits (fun char =>
      if char.isDigit then some (char.toNat - '0'.toNat) else none)) with
    | [some hours, some minutes, some seconds] =>
        some (Fin.ofNat 24 hours, Fin.ofNat 60 minutes, Fin.ofNat 60 seconds)
    | _ => none

def fiveSeconds : RunningSession where
  data :=
    { nowVpn := some { host := "h", vpnDate := "7" }
      hisVpn := [{ host := "h", vpnDate := "7", connectTime := "00:00:05" }]
      endTime := "00:00:05" }
  vpn := { host := "h", vpnDate := "7" }
  chosen := by decide
  timed := ⟨5000, by decide⟩
  bounded := by decide

/-- The page opens with the right total, and shows twice the time of the session at its first
refresh. -/
theorem not_showsTotals_refresh :
    ∃ page, initAdapter plainHistoryRuntime 5007 fiveSeconds = some page ∧
      page.shown = "00:00:05" ∧ (page.getEndTIme plainHistoryRuntime).shown = "00:00:10" ∧
      (page.getEndTIme plainHistoryRuntime).session.dayTotal plainHistoryRuntime 5007 = 5 ∧
      ¬ ShowsTotals plainHistoryRuntime 5007 fiveSeconds [.refresh 5007] := by
  let page : HistoryPage :=
    { session := fiveSeconds, totalTime := "00:00:05", shown := "00:00:05" }
  have opened : initAdapter plainHistoryRuntime 5007 fiveSeconds = some page := by
    have stats : plainHistoryRuntime.getConnectionStats 5007 fiveSeconds.data =
        some ("00:00:05", some "-") := by decide +kernel
    rw [initAdapter, stats]
    rfl
  have shown : (page.getEndTIme plainHistoryRuntime).shown = "00:00:10" := by decide +kernel
  have due : (page.getEndTIme plainHistoryRuntime).session.dayTotal plainHistoryRuntime 5007 = 5 :=
    by decide +kernel
  refine ⟨page, opened, rfl, shown, due, ?_⟩
  intro totals
  have right := (totals page opened).2 [] (.refresh 5007) [] rfl rfl
  have same : formatTotal 5 = "00:00:10" := by
    rw [← due]
    exact right.symm.trans shown
  exact absurd same (by decide +kernel)

end AlienConnection.Ui
