import AlienConnection.Ui.HistoryTotal

/-!
# Times written and read

The clock of a session writes the elapsed time as a time of day, and the total of the day reads
it back as one before it adds it up and writes the sum with as many hours as it takes. So a
session is recorded without its whole days, and the total is right exactly if no session has
lasted a day.
-/

namespace AlienConnection.Ui

open Library

def HistoryRuntime.ReadsClock (runtime : HistoryRuntime) : Prop :=
  ∀ (hours : Fin 24) (minutes seconds : Fin 60),
    runtime.parseTime (formatClock hours.val minutes.val seconds.val) =
      some (hours, minutes, seconds)

def Denotes (text : String) (total : Nat) : Prop :=
  ∃ hours minutes seconds : Nat, text = formatClock hours minutes seconds ∧ minutes < 60 ∧
    seconds < 60 ∧ total = hours * 3600 + minutes * 60 + seconds

/-- The entries of the history are those of sessions of the given lengths, in milliseconds,
and all of today. -/
structure Records (runtime : HistoryRuntime) (millis : Int) (data : DataUtils)
    (lengths : List Nat) : Prop where
  written : List.Forall₂ (fun vpn length => vpn.connectTime = formatTime (length : Nat))
    data.hisVpn lengths
  today : ∀ vpn ∈ data.hisVpn, runtime.isToday millis vpn = true

def wholeSeconds (length : Nat) : Nat := length / 1000

def dayMillis : Nat := 86400000

theorem denotes_iff {text : String} {total : Nat} :
    Denotes text total ↔ text = formatTotal total := by
  constructor
  · rintro ⟨hours, minutes, seconds, rfl, minuteBound, secondBound, rfl⟩
    have parts : (hours * 3600 + minutes * 60 + seconds) / 3600 = hours ∧
        (hours * 3600 + minutes * 60 + seconds) % 3600 / 60 = minutes ∧
        (hours * 3600 + minutes * 60 + seconds) % 60 = seconds := by omega
    rw [formatTotal, parts.1, parts.2.1, parts.2.2]
  · rintro rfl
    exact ⟨total / 3600, total % 3600 / 60, total % 60, rfl, by omega, by omega, by omega⟩

section

variable {runtime : HistoryRuntime} {millis : Int} {data : DataUtils} {lengths : List Nat}

/-- What is read of a time of the clock: the seconds without the whole days. -/
theorem duration_formatTime (reads : runtime.ReadsClock) {vpn : HisBean} {length : Nat}
    (written : vpn.connectTime = formatTime length) :
    runtime.duration vpn = wholeSeconds length % 86400 := by
  have day : ((length : Int) / 1000 % 86400).toNat = wholeSeconds length % 86400 := by
    unfold wholeSeconds
    omega
  have text : vpn.connectTime = formatTotal (wholeSeconds length % 86400) := by
    rw [written, formatTime_eq_formatTotal, day]
  generalize wholeSeconds length % 86400 = seconds at text day
  have bound : seconds < 86400 := by omega
  have read := reads ⟨seconds / 3600, by omega⟩ ⟨seconds % 3600 / 60, by omega⟩
    ⟨seconds % 60, by omega⟩
  rw [HistoryRuntime.duration, text, formatTotal, read]
  dsimp only
  omega

theorem sum_duration (reads : runtime.ReadsClock) {entries : List HisBean}
    (written : List.Forall₂ (fun vpn length => vpn.connectTime = formatTime (length : Nat))
      entries lengths) :
    (entries.map runtime.duration).sum =
      (lengths.map (fun length => wholeSeconds length % 86400)).sum := by
  induction written with
  | nil => rfl
  | cons here _ ih =>
      rw [List.map_cons, List.map_cons, List.sum_cons, List.sum_cons, ih,
        duration_formatTime reads here]

/-- Only with a session of a day does the sum lose something. -/
theorem sum_day_eq_iff (lengths : List Nat) :
    (lengths.map (fun length => wholeSeconds length % 86400)).sum =
        (lengths.map wholeSeconds).sum ↔ ∀ length ∈ lengths, length < dayMillis := by
  have below : ∀ lengths : List Nat,
      (lengths.map (fun length => wholeSeconds length % 86400)).sum ≤
        (lengths.map wholeSeconds).sum := by
    intro lengths
    induction lengths with
    | nil => exact Nat.le_refl _
    | cons length rest ih =>
        have one := Nat.mod_le (wholeSeconds length) 86400
        simp only [List.map_cons, List.sum_cons]
        omega
  induction lengths with
  | nil => simp
  | cons length rest ih =>
      have others := below rest
      have one := Nat.mod_le (wholeSeconds length) 86400
      have short : wholeSeconds length % 86400 = wholeSeconds length ↔ length < dayMillis := by
        unfold wholeSeconds dayMillis
        omega
      rw [List.map_cons, List.map_cons, List.sum_cons, List.sum_cons, List.forall_mem_cons]
      refine Iff.trans ?_ (and_congr short ih)
      omega

/-- Nothing throws when every entry is of today. -/
theorem Records.stats (records : Records runtime millis data lengths) :
    ∃ stats, runtime.getConnectionStats millis data = some stats := by
  have dated : (data.getHisListVpn.all
      (fun vpn => (runtime.toLong vpn.vpnDate.toList).isSome)) = true := by
    rw [List.all_eq_true]
    intro vpn listed
    have today := records.today vpn (data.getHisListVpn_perm.mem_iff.mp listed)
    rw [HistoryRuntime.isToday, decide_eq_true_eq, Option.map_eq_some_iff] at today
    obtain ⟨date, read, _⟩ := today
    rw [read]
    rfl
  rw [HistoryRuntime.getConnectionStats, if_pos dated]
  exact ⟨_, rfl⟩

theorem Records.total (records : Records runtime millis data lengths) (reads : runtime.ReadsClock)
    {stats : String × Option String}
    (opened : runtime.getConnectionStats millis data = some stats) :
    stats.1 = formatTotal (lengths.map (fun length => wholeSeconds length % 86400)).sum := by
  have all : data.hisVpn.filter (runtime.isToday millis) = data.hisVpn :=
    List.filter_eq_self.mpr records.today
  rw [getConnectionStats_total opened, all, sum_duration reads records.written]

end

/-- **Times survive exactly if no session lasts a day.** -/
theorem total_denotes_sum_iff (runtime : HistoryRuntime) (reads : runtime.ReadsClock)
    (millis : Int) (data : DataUtils) (lengths : List Nat)
    (records : Records runtime millis data lengths) :
    (∃ stats, runtime.getConnectionStats millis data = some stats ∧
        Denotes stats.1 (lengths.map wholeSeconds).sum) ↔
      ∀ length ∈ lengths, length < dayMillis := by
  obtain ⟨stats, opened⟩ := records.stats
  have total := records.total reads opened
  rw [← sum_day_eq_iff]
  constructor
  · rintro ⟨other, found, denotes⟩
    rw [opened] at found
    cases found
    rw [denotes_iff, total] at denotes
    exact HistoryRuntime.formatTotal_injective runtime denotes
  · intro same
    refine ⟨stats, opened, ?_⟩
    rw [denotes_iff, total, same]

/-- The reader of the plain platform. -/
theorem readsClock_plain : plainHistoryRuntime.ReadsClock := by
  intro hours minutes seconds
  have read : ∀ number, Decimal.digits (fun char : Char =>
      if char.isDigit then some (char.toNat - '0'.toNat) else none) (twoDigits number).toList =
        some number := by
    intro number
    rw [Decimal.digits]
    · exact digitsFrom_twoDigits plainHistoryRuntime.readsAscii number
    · rw [toList_twoDigits]
      split
      · exact List.cons_ne_nil _ _
      · exact Nat.toDigits_ne_nil
  have parsed : plainHistoryRuntime.parseTime (formatClock hours.val minutes.val seconds.val) =
      some (Fin.ofNat 24 hours.val, Fin.ofNat 60 minutes.val, Fin.ofNat 60 seconds.val) := by
    simp only [plainHistoryRuntime, splitOn_formatClock, List.map_cons, List.map_nil, read]
  rw [parsed]
  simp

def twoSessions : DataUtils where
  hisVpn :=
    [{ host := "h", vpnDate := "7", connectTime := "00:00:05" },
      { host := "h", vpnDate := "8", connectTime := "23:59:59" }]

theorem records_twoSessions : Records plainHistoryRuntime 100 twoSessions [5000, 86399000] where
  written := .cons (by decide) (.cons (by decide) .nil)
  today := by
    have all : (twoSessions.hisVpn.all (plainHistoryRuntime.isToday 100)) = true := by
      decide +kernel
    exact List.all_eq_true.mp all

/-- Their total is a whole day and four seconds. -/
theorem total_twoSessions :
    ∃ stats, plainHistoryRuntime.getConnectionStats 100 twoSessions = some stats ∧
      Denotes stats.1 86404 :=
  (total_denotes_sum_iff plainHistoryRuntime readsClock_plain 100 twoSessions [5000, 86399000]
    records_twoSessions).mpr (by decide)

/-- The day on which summer time ends has 25 hours. -/
def longDayRuntime : HistoryRuntime :=
  { plainHistoryRuntime with dateText := fun millis => toString (millis / 90000000) }

/-- A session that starts ten minutes after midnight of such a day and lasts 24 hours is
written as no time, and so is the total. -/
theorem total_of_day :
    let data : DataUtils :=
      { hisVpn := [{ host := "h", vpnDate := "600000", connectTime := "00:00:00" }] }
    Records longDayRuntime 87000000 data [86400000] ∧
      longDayRuntime.getConnectionStats 87000000 data = some ("00:00:00", some "-") ∧
      ¬ Denotes "00:00:00" ([86400000].map wholeSeconds).sum := by
  refine ⟨⟨.cons (by decide) .nil, ?_⟩, by decide +kernel, ?_⟩
  · intro vpn listed
    rw [List.mem_singleton.mp listed]
    decide +kernel
  · rw [denotes_iff]
    decide

end AlienConnection.Ui
