import AlienConnection.Library.Machine
import Mathlib.Data.List.Induction

/-!
# The daily limits

The advertisements of a day are counted as they are shown and clicked, and once a limit is
reached an event is posted. `caoShow` sets the counters back when it finds another day, but
a show or a click does not look at the day, and the mark that the event has been posted is
never taken back.
-/

namespace AlienConnection.Ads

open Library

/-- The two fields of a date that `isSameDay` compares, in the time zone of the phone. -/
structure Calendar where
  year : Int → Int
  dayOfYear : Int → Int

def Calendar.day (calendar : Calendar) (time : Int) : Int × Int :=
  (calendar.year time, calendar.dayOfYear time)

def isSameDay (calendar : Calendar) (time1 time2 : Int) : Bool :=
  calendar.year time1 = calendar.year time2 && calendar.dayOfYear time1 = calendar.dayOfYear time2

structure Limits where
  sbjiortb : Int32
  crhpjkr : Int32

inductive LimitType where
  | shows | clicks
  deriving DecidableEq, Repr

structure AdDates where
  adDateApp : Int := 0
  adDateShow : Int32 := 0
  adDateClick : Int32 := 0
  adDateUp : Bool := false
  deriving DecidableEq, Repr

namespace AdDates

def resetCountsIfNeeded (calendar : Calendar) (currentDate : Int) (dates : AdDates) : AdDates :=
  if isSameDay calendar dates.adDateApp currentDate then dates
  else { dates with adDateApp := currentDate, adDateShow := 0, adDateClick := 0 }

def incrementSHowCount (dates : AdDates) : AdDates :=
  { dates with adDateShow := dates.adDateShow + 1 }

def incrementClickCount (dates : AdDates) : AdDates :=
  { dates with adDateClick := dates.adDateClick + 1 }

def report (type : LimitType) (reached : Bool) (dates : AdDates) : AdDates × List LimitType :=
  if reached && !dates.adDateUp then ({ dates with adDateUp := true }, [type]) else (dates, [])

def caoShow (limits : Limits) (calendar : Calendar) (currentDate : Int) (dates : AdDates) :
    Bool × AdDates × List LimitType :=
  let reset := dates.resetCountsIfNeeded calendar currentDate
  let full := decide (limits.sbjiortb ≤ reset.adDateShow)
  let clicked := decide (limits.crhpjkr ≤ reset.adDateClick)
  let first := reset.report .shows full
  let second := first.1.report .clicks clicked
  (full || clicked, second.1, first.2 ++ second.2)

end AdDates

/-- What happens to the counters. `init` runs when the process starts. -/
inductive AdAction where
  | init
  | incrementSHowCount
  | incrementClickCount
  | caoShow
  deriving DecidableEq, Repr

structure AdEvent where
  time : Int
  action : AdAction
  deriving DecidableEq, Repr

section

variable (limits : Limits) (calendar : Calendar)

def AdDates.perform (dates : AdDates) (event : AdEvent) : AdDates × List LimitType :=
  match event.action with
  | .init => (dates.resetCountsIfNeeded calendar event.time, [])
  | .incrementSHowCount => (dates.incrementSHowCount, [])
  | .incrementClickCount => (dates.incrementClickCount, [])
  | .caoShow => (dates.caoShow limits calendar event.time).2

def AdDates.after (events : List AdEvent) : AdDates :=
  Machine.run (fun dates event => (AdDates.perform limits calendar dates event).1) {} events

def reports : AdDates → List AdEvent → List ((Int × Int) × LimitType)
  | _, [] => []
  | dates, event :: rest =>
      (dates.perform limits calendar event).2.map (fun type => (calendar.day event.time, type)) ++
        reports (dates.perform limits calendar event).1 rest

def reportsOn (day : Int × Int) (events : List AdEvent) : List ((Int × Int) × LimitType) :=
  (reports limits calendar {} events).filter (fun report => report.1 = day)

def countOn (action : AdAction) (day : Int × Int) (events : List AdEvent) : Int :=
  (events.filter (fun event => event.action = action ∧ calendar.day event.time = day)).length

def Full (day : Int × Int) (events : List AdEvent) : Prop :=
  limits.sbjiortb.toInt ≤ countOn calendar .incrementSHowCount day events ∨
    limits.crhpjkr.toInt ≤ countOn calendar .incrementClickCount day events

/-- `caoShow` is called on the day, with a limit of the day reached before. -/
def Reached (day : Int × Int) (events : List AdEvent) : Prop :=
  ∃ first time second, events = first ++ ⟨time, .caoShow⟩ :: second ∧ calendar.day time = day ∧
    Full limits calendar day first

/-- One event is posted on each day that reaches a limit, and none on another day. -/
def Announces (events : List AdEvent) : Prop :=
  ∀ day, (Reached limits calendar day events → (reportsOn limits calendar day events).length = 1) ∧
    (¬ Reached limits calendar day events → reportsOn limits calendar day events = [])

/-- The counters, as `caoShow` finds them, have reached a limit: they are those of the day,
or start anew. -/
def AdDates.Counted (currentDate : Int) (dates : AdDates) : Prop :=
  if isSameDay calendar dates.adDateApp currentDate then
    limits.sbjiortb ≤ dates.adDateShow ∨ limits.crhpjkr ≤ dates.adDateClick
  else limits.sbjiortb ≤ 0 ∨ limits.crhpjkr ≤ 0

/-- What a call of `caoShow` meets. Before the mark is set, the counters agree with the shows
and clicks of the day; once it is set, a limit is only reached on a day on which an earlier
call has found it reached. -/
def Agrees (before : List AdEvent) (event : AdEvent) : Prop :=
  event.action = .caoShow →
    if (AdDates.after limits calendar before).adDateUp then
      Full limits calendar (calendar.day event.time) before →
        Reached limits calendar (calendar.day event.time) before
    else
      Full limits calendar (calendar.day event.time) before ↔
        (AdDates.after limits calendar before).Counted limits calendar event.time

end

/-! ## One call -/

section

variable {limits : Limits} {calendar : Calendar}

theorem AdDates.report_of_marked {dates : AdDates} (marked : dates.adDateUp = true)
    (type : LimitType) (reached : Bool) : dates.report type reached = (dates, []) := by
  unfold report
  rw [marked, Bool.not_true, Bool.and_false, if_neg Bool.false_ne_true]

theorem AdDates.report_of_unmarked {dates : AdDates} (unmarked : dates.adDateUp = false)
    (type : LimitType) (reached : Bool) :
    dates.report type reached =
      if reached then ({ dates with adDateUp := true }, [type]) else (dates, []) := by
  unfold report
  rw [unmarked, Bool.not_false, Bool.and_true]

theorem AdDates.reset_up (currentDate : Int) (dates : AdDates) :
    (dates.resetCountsIfNeeded calendar currentDate).adDateUp = dates.adDateUp := by
  unfold resetCountsIfNeeded
  split <;> rfl

theorem AdDates.counted_iff (currentDate : Int) (dates : AdDates) :
    dates.Counted limits calendar currentDate ↔
      limits.sbjiortb ≤ (dates.resetCountsIfNeeded calendar currentDate).adDateShow ∨
        limits.crhpjkr ≤ (dates.resetCountsIfNeeded calendar currentDate).adDateClick := by
  unfold Counted resetCountsIfNeeded
  split <;> exact Iff.rfl

/-- With the mark set, nothing is posted. -/
theorem AdDates.caoShow_of_marked {dates : AdDates} (marked : dates.adDateUp = true)
    (currentDate : Int) :
    (dates.caoShow limits calendar currentDate).2 =
      (dates.resetCountsIfNeeded calendar currentDate, []) := by
  have kept : (dates.resetCountsIfNeeded calendar currentDate).adDateUp = true := by
    rw [reset_up, marked]
  simp only [caoShow, report_of_marked kept, List.append_nil]

/-- Without the mark, one event is posted if the counters have reached a limit. -/
theorem AdDates.caoShow_of_unmarked {dates : AdDates} (unmarked : dates.adDateUp = false)
    (currentDate : Int) :
    (dates.Counted limits calendar currentDate ∧
        (dates.caoShow limits calendar currentDate).2.1.adDateUp = true ∧
        (dates.caoShow limits calendar currentDate).2.2.length = 1) ∨
      (¬ dates.Counted limits calendar currentDate ∧
        (dates.caoShow limits calendar currentDate).2 =
          (dates.resetCountsIfNeeded calendar currentDate, [])) := by
  rw [counted_iff]
  have kept : (dates.resetCountsIfNeeded calendar currentDate).adDateUp = false := by
    rw [reset_up, unmarked]
  simp only [caoShow]
  generalize dates.resetCountsIfNeeded calendar currentDate = reset at kept ⊢
  by_cases shown : limits.sbjiortb ≤ reset.adDateShow
  · have marked : ({ reset with adDateUp := true } : AdDates).adDateUp = true := rfl
    refine Or.inl ⟨Or.inl shown, ?_⟩
    simp only [report_of_unmarked kept, shown, decide_true, if_true, report_of_marked marked,
      List.append_nil, List.length_singleton, and_self]
  · by_cases clicked : limits.crhpjkr ≤ reset.adDateClick
    · refine Or.inl ⟨Or.inr clicked, ?_⟩
      simp [report_of_unmarked kept, shown, clicked]
    · refine Or.inr ⟨not_or.mpr ⟨shown, clicked⟩, ?_⟩
      simp [report_of_unmarked kept, shown, clicked]

/-! ## Whole runs -/

theorem AdDates.after_concat (events : List AdEvent) (event : AdEvent) :
    AdDates.after limits calendar (events ++ [event]) =
      ((AdDates.after limits calendar events).perform limits calendar event).1 :=
  Machine.run_concat _ _ _ _

theorem reports_append (dates : AdDates) (first second : List AdEvent) :
    reports limits calendar dates (first ++ second) =
      reports limits calendar dates first ++
        reports limits calendar
          (Machine.run (fun dates event => (AdDates.perform limits calendar dates event).1) dates
            first) second := by
  induction first generalizing dates with
  | nil => rfl
  | cons event rest ih =>
      rw [List.cons_append, reports, ih, reports, List.append_assoc]
      rfl

theorem reportsOn_concat (day : Int × Int) (events : List AdEvent) (event : AdEvent) :
    reportsOn limits calendar day (events ++ [event]) =
      reportsOn limits calendar day events ++
        if calendar.day event.time = day then
          ((AdDates.after limits calendar events).perform limits calendar event).2.map
            (fun type => (calendar.day event.time, type))
        else [] := by
  rw [reportsOn, reports_append, List.filter_append, ← reportsOn, ← AdDates.after, reports,
    reports, List.append_nil, List.filter_map]
  congr 1
  by_cases same : calendar.day event.time = day
  · rw [if_pos same]
    simp [Function.comp_def, same]
  · rw [if_neg same]
    simp [Function.comp_def, same]

/-- As long as the mark is not set, nothing has been posted. -/
theorem reportsOn_of_unmarked (events : List AdEvent)
    (unmarked : (AdDates.after limits calendar events).adDateUp = false) (day : Int × Int) :
    reportsOn limits calendar day events = [] := by
  induction events using List.reverseRecOn with
  | nil => rfl
  | append_singleton events event ih =>
      rw [AdDates.after_concat] at unmarked
      rw [reportsOn_concat]
      generalize AdDates.after limits calendar events = dates at unmarked ih
      have both : dates.adDateUp = false ∧ (dates.perform limits calendar event).2 = [] := by
        unfold AdDates.perform at unmarked ⊢
        split at unmarked
        · rw [AdDates.reset_up] at unmarked
          exact ⟨unmarked, rfl⟩
        · exact ⟨unmarked, rfl⟩
        · exact ⟨unmarked, rfl⟩
        · cases marked : dates.adDateUp with
          | true =>
              rw [AdDates.caoShow_of_marked marked, AdDates.reset_up, marked] at unmarked
              cases unmarked
          | false =>
              rcases AdDates.caoShow_of_unmarked marked event.time with ⟨_, up, _⟩ | ⟨_, none⟩
              · rw [up] at unmarked
                cases unmarked
              · exact ⟨rfl, congrArg Prod.snd none⟩
      rw [ih both.1, both.2]
      simp

theorem reached_concat {day : Int × Int} {events : List AdEvent} {event : AdEvent} :
    Reached limits calendar day (events ++ [event]) ↔
      Reached limits calendar day events ∨
        (event.action = .caoShow ∧ calendar.day event.time = day ∧
          Full limits calendar day events) := by
  constructor
  · rintro ⟨first, time, second, split, same, full⟩
    rcases List.eq_nil_or_concat second with rfl | ⟨front, last, rfl⟩
    · obtain ⟨rfl, here⟩ := List.append_inj' split rfl
      cases here
      exact Or.inr ⟨rfl, same, full⟩
    · rw [List.concat_eq_append, ← List.cons_append, ← List.append_assoc] at split
      exact Or.inl ⟨first, time, front, (List.append_inj' split rfl).1, same, full⟩
  · rintro (⟨first, time, second, rfl, same, full⟩ | ⟨called, same, full⟩)
    · exact ⟨first, time, second ++ [event], by simp, same, full⟩
    · obtain ⟨time, action⟩ := event
      cases called
      exact ⟨events, time, [], rfl, same, full⟩

/-- Another event than `caoShow` posts nothing and reaches no limit. -/
theorem announces_concat_of_ne {events : List AdEvent} {event : AdEvent}
    (other : event.action ≠ .caoShow) :
    Announces limits calendar (events ++ [event]) ↔ Announces limits calendar events := by
  have silent : ((AdDates.after limits calendar events).perform limits calendar event).2 = [] := by
    unfold AdDates.perform
    split
    · rfl
    · rfl
    · rfl
    · contradiction
  have same : ∀ day, reportsOn limits calendar day (events ++ [event]) =
      reportsOn limits calendar day events := by
    intro day
    rw [reportsOn_concat, silent]
    simp
  simp only [Announces, same, reached_concat, other, false_and, or_false]

/-- A call of `caoShow` concerns its own day only. -/
theorem announces_caoShow_iff {events : List AdEvent} {event : AdEvent}
    (called : event.action = .caoShow) (announces : Announces limits calendar events) :
    Announces limits calendar (events ++ [event]) ↔
      let day := calendar.day event.time
      let before := (reportsOn limits calendar day events).length
      let posted := ((AdDates.after limits calendar events).caoShow limits calendar
        event.time).2.2.length
      (Reached limits calendar day events ∨ Full limits calendar day events →
          before + posted = 1) ∧
        (¬ (Reached limits calendar day events ∨ Full limits calendar day events) →
          before + posted = 0) := by
  have acted : (AdDates.after limits calendar events).perform limits calendar event =
      ((AdDates.after limits calendar events).caoShow limits calendar event.time).2 := by
    rw [AdDates.perform, called]
  have here : (reportsOn limits calendar (calendar.day event.time) (events ++ [event])).length =
      (reportsOn limits calendar (calendar.day event.time) events).length +
        ((AdDates.after limits calendar events).caoShow limits calendar
          event.time).2.2.length := by
    rw [reportsOn_concat, if_pos rfl, acted, List.length_append, List.length_map]
  constructor
  · intro later
    have own := later (calendar.day event.time)
    rw [reached_concat, ← List.length_eq_zero_iff, here] at own
    simpa only [called, true_and] using own
  · intro own day
    by_cases same : calendar.day event.time = day
    · subst same
      rw [reached_concat, ← List.length_eq_zero_iff, here]
      simpa only [called, true_and] using own
    · rw [reportsOn_concat, if_neg same, List.append_nil, reached_concat]
      simpa only [same, false_and, and_false, or_false] using announces day

/-- One more event: the reports stay right exactly if it agrees with the day. -/
theorem announces_concat_iff {events : List AdEvent} (event : AdEvent)
    (announces : Announces limits calendar events) :
    Announces limits calendar (events ++ [event]) ↔ Agrees limits calendar events event := by
  by_cases called : event.action = .caoShow
  · obtain ⟨some, none⟩ := announces (calendar.day event.time)
    rw [announces_caoShow_iff called announces, Agrees]
    simp only [called, forall_const]
    cases marked : (AdDates.after limits calendar events).adDateUp with
    | true =>
        -- nothing is posted any more
        rw [AdDates.caoShow_of_marked marked, if_pos rfl, List.length_nil, Nat.add_zero]
        constructor
        · rintro ⟨once, _⟩ full
          by_contra unreached
          have posted := once (Or.inr full)
          rw [none unreached] at posted
          cases posted
        · intro agrees
          refine ⟨fun either => some (either.elim id agrees), fun neither => ?_⟩
          rw [none (fun reached => neither (Or.inl reached)), List.length_nil]
    | false =>
        -- nothing has been posted yet, so no day has reached a limit
        have silent := reportsOn_of_unmarked events marked (calendar.day event.time)
        have unreached : ¬ Reached limits calendar (calendar.day event.time) events := by
          intro reached
          have posted := some reached
          rw [silent] at posted
          cases posted
        rw [silent, if_neg Bool.false_ne_true, List.length_nil, Nat.zero_add]
        rcases @AdDates.caoShow_of_unmarked limits calendar _ marked event.time with
          ⟨counted, _, posted⟩ | ⟨uncounted, unposted⟩
        · simp [unreached, counted, posted]
        · simp [unreached, uncounted, unposted]
  · rw [announces_concat_of_ne called]
    exact ⟨fun _ isCall => absurd isCall called, fun _ => announces⟩

theorem announces_nil : Announces limits calendar [] := by
  intro day
  refine ⟨?_, fun _ => rfl⟩
  rintro ⟨first, time, second, split, _⟩
  cases first <;> cases split

theorem run_concat_events (before events : List AdEvent) :
    Machine.run (fun events event => events ++ [event]) before events = before ++ events := by
  induction events generalizing before with
  | nil => exact (List.append_nil before).symm
  | cons event rest ih =>
      rw [List.append_cons]
      exact ih (before ++ [event])

end

/-- The event of the limit is posted once on each day that reaches a limit, and on no other
day, exactly if every call of `caoShow` agrees with its day. -/
theorem announces_iff_agrees (limits : Limits) (calendar : Calendar) (events : List AdEvent) :
    (∀ first second, events = first ++ second → Announces limits calendar first) ↔
      ∀ first event second, events = first ++ event :: second →
        Agrees limits calendar first event := by
  have extends_iff : ∀ (before : List AdEvent) (event : AdEvent),
      Announces limits calendar before →
        (Announces limits calendar (before ++ [event]) ↔ Agrees limits calendar before event) :=
    fun _ event announces => announces_concat_iff event announces
  have whole := Machine.throughout_iff_along extends_iff announces_nil events
  simpa only [Machine.Along, run_concat_events, List.nil_append] using whole

/-- Two days with one show each, where one show is the limit: the second day passes in
silence. -/
theorem not_announces_secondDay :
    let limits : Limits := ⟨1, 8⟩
    let calendar : Calendar := ⟨fun time => time / 31536000000, fun time => time / 86400000 % 365⟩
    let on (day : Int) : List AdEvent :=
      [⟨day * 86400000, .caoShow⟩, ⟨day * 86400000, .incrementSHowCount⟩,
        ⟨day * 86400000, .caoShow⟩]
    let events := on 20000 ++ on 20001
    Reached limits calendar (calendar.day (20001 * 86400000)) events ∧
      reportsOn limits calendar (calendar.day (20001 * 86400000)) events = [] ∧
      ¬ Announces limits calendar events := by
  intro limits calendar on events
  have silent : reportsOn limits calendar (calendar.day (20001 * 86400000)) events = [] := by
    decide
  have reached : Reached limits calendar (calendar.day (20001 * 86400000)) events :=
    ⟨events.take 5, 20001 * 86400000, [], rfl, rfl, Or.inl (by decide)⟩
  refine ⟨reached, silent, ?_⟩
  intro announces
  have posted := (announces _).1 reached
  rw [silent] at posted
  cases posted

end AlienConnection.Ads
