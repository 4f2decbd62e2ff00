import AlienConnection.Library.Machine
import AlienConnection.Library.Tasks
import Mathlib.Logic.Function.Basic

/-!
# Handles of launched tasks

Several launchers share a table of tasks, and each has one handle. A start puts the new task
into the handle and leaves the old one running; a stop cancels the task of the handle. No
two tasks run at a time, and none runs after a stop, exactly if starts and stops alternate:
nothing is started while a task runs, and what runs is stopped by the launcher that started
it.
-/

namespace AlienConnection.Library.Handles

variable {κ : Type}

structure Table (κ : Type) where
  /-- Which tasks are live, in the order of their launch. -/
  live : List Bool
  handle : κ → Option Nat

inductive Use (κ : Type) where
  | start (launcher : κ)
  | stop (launcher : κ)
  deriving DecidableEq, Repr

namespace Table

def Live (table : Table κ) (task : Nat) : Prop := table.live[task]? = some true

def Single (table : Table κ) : Prop :=
  ∀ first second, table.Live first → table.Live second → first = second

def Quiet (table : Table κ) : Prop := ∀ task, ¬ table.Live task

variable [DecidableEq κ]

def use (table : Table κ) : Use κ → Table κ
  | .start launcher =>
      { live := table.live ++ [true]
        handle := Function.update table.handle launcher (some table.live.length) }
  | .stop launcher =>
      match table.handle launcher with
      | none => table
      | some task => { table with live := table.live.set task false }

theorem live_start_iff (table : Table κ) (launcher : κ) (task : Nat) :
    (table.use (.start launcher)).Live task ↔ table.Live task ∨ task = table.live.length := by
  constructor
  · intro live
    rcases Tasks.getElem?_launch_cases live with before | ⟨last, _⟩
    · exact Or.inl before
    · exact Or.inr last
  · rintro (before | rfl)
    · have inside := (List.getElem?_eq_some_iff.mp before).1
      exact (List.getElem?_append_left inside).trans before
    · exact List.getElem?_concat_length

theorem live_stop_iff (table : Table κ) (launcher : κ) (task : Nat) :
    (table.use (.stop launcher)).Live task ↔
      table.Live task ∧ table.handle launcher ≠ some task := by
  rw [use]
  split
  next none =>
    rw [none]
    exact (and_iff_left (fun same => nomatch same)).symm
  next held handle =>
    rw [handle]
    constructor
    · intro live
      rcases Tasks.getElem?_set_cases live with ⟨_, dead⟩ | ⟨other, before⟩
      · cases dead
      · exact ⟨before, fun same => other (Option.some.inj same).symm⟩
    · rintro ⟨before, other⟩
      have apart : held ≠ task := fun same => other (congrArg some same)
      exact (List.getElem?_set_ne apart).trans before

end Table

/-! ## The owner of the live task -/

/-- Only one task is live, the one in the handle of the owner, or none if nobody owns one. -/
structure Owned (table : Table κ) (owner : Option κ) : Prop where
  inside : ∀ launcher task, table.handle launcher = some task → task < table.live.length
  quiet : owner = none → table.Quiet
  only : ∀ launcher, owner = some launcher → ∃ task, table.Live task ∧
    (∀ other, table.Live other → other = task) ∧
    ∀ other, table.handle other = some task ↔ other = launcher

/-- A start needs that nobody owns a task, and a stop that nobody else does. -/
def Allowed : Option κ → Use κ → Prop
  | owner, .start _ => owner = none
  | owner, .stop launcher => owner = none ∨ owner = some launcher

def Use.leaves : Use κ → Option κ
  | .start launcher => some launcher
  | .stop _ => none

def Tidy (table : Table κ) : Use κ → Prop
  | .start _ => table.Single
  | .stop _ => table.Quiet

theorem Table.Quiet.single {table : Table κ} (quiet : table.Quiet) : table.Single :=
  fun first _ live => absurd live (quiet first)

theorem Owned.single {table : Table κ} {owner : Option κ} (owned : Owned table owner) :
    table.Single := by
  cases owner with
  | none => exact (owned.quiet rfl).single
  | some launcher =>
      obtain ⟨task, _, unique, _⟩ := owned.only launcher rfl
      intro first second firstLive secondLive
      exact (unique first firstLive).trans (unique second secondLive).symm

variable [DecidableEq κ]

theorem Owned.start {table : Table κ} (owned : Owned table none) (launcher : κ) :
    Owned (table.use (.start launcher)) (some launcher) := by
  have quiet := owned.quiet rfl
  refine ⟨?_, fun none => (nomatch none), ?_⟩
  · intro other task held
    simp only [Table.use, List.length_append, List.length_singleton] at held ⊢
    by_cases same : other = launcher
    · subst same
      rw [Function.update_self] at held
      cases held
      exact Nat.lt_succ_self _
    · rw [Function.update_of_ne same] at held
      exact Nat.lt_succ_of_lt (owned.inside other task held)
  · intro own same
    cases same
    refine ⟨table.live.length, (table.live_start_iff _ _).mpr (Or.inr rfl), ?_, ?_⟩
    · intro other live
      rcases (table.live_start_iff _ _).mp live with before | last
      · exact absurd before (quiet other)
      · exact last
    · intro other
      simp only [Table.use]
      by_cases same : other = launcher
      · subst same
        simp only [Function.update_self]
      · rw [Function.update_of_ne same]
        refine iff_of_false (fun held => ?_) same
        exact Nat.lt_irrefl _ (owned.inside other _ held)

theorem use_stop_length (table : Table κ) (launcher : κ) :
    (table.use (.stop launcher)).live.length = table.live.length := by
  rw [Table.use]
  split
  next => rfl
  next => exact List.length_set

theorem use_stop_handle (table : Table κ) (launcher : κ) :
    (table.use (.stop launcher)).handle = table.handle := by
  rw [Table.use]
  split <;> rfl

theorem Owned.stop {table : Table κ} {owner : Option κ} (owned : Owned table owner)
    {launcher : κ} (allowed : Allowed owner (.stop launcher)) :
    Owned (table.use (.stop launcher)) none := by
  refine ⟨?_, fun _ task live => ?_, fun other some => (nomatch some)⟩
  · rw [use_stop_handle, use_stop_length]
    exact owned.inside
  · obtain ⟨before, other⟩ := (table.live_stop_iff _ _).mp live
    rcases allowed with none | own
    · exact owned.quiet none task before
    · obtain ⟨only, _, unique, handle⟩ := owned.only launcher own
      rw [unique task before] at other
      exact other ((handle launcher).mpr rfl)

theorem Owned.use {table : Table κ} {owner : Option κ} (owned : Owned table owner) {use : Use κ}
    (allowed : Allowed owner use) : Owned (table.use use) use.leaves := by
  cases use with
  | start launcher =>
      have none : owner = none := allowed
      subst none
      exact owned.start launcher
  | stop launcher => exact owned.stop allowed

/-- The table is as it should be after a use exactly if the use is allowed. -/
theorem Owned.tidy_iff {table : Table κ} {owner : Option κ} (owned : Owned table owner)
    (use : Use κ) : Tidy (table.use use) use ↔ Allowed owner use := by
  constructor
  · intro tidy
    cases owner with
    | none => cases use with
      | start launcher => exact rfl
      | stop launcher => exact Or.inl rfl
    | some own =>
        obtain ⟨task, live, _, handle⟩ := owned.only own rfl
        cases use with
        | start launcher =>
            -- The task of the owner and the new one are both live.
            have both := tidy task table.live.length
              ((table.live_start_iff _ _).mpr (Or.inl live))
              ((table.live_start_iff _ _).mpr (Or.inr rfl))
            have inside := (List.getElem?_eq_some_iff.mp live).1
            omega
        | stop launcher =>
            apply Or.inr
            by_contra other
            apply tidy task
            refine (table.live_stop_iff _ _).mpr ⟨live, fun held => ?_⟩
            exact other (congrArg some ((handle launcher).mp held).symm)
  · intro allowed
    have after := owned.use allowed
    cases use with
    | start launcher => exact after.single
    | stop launcher => exact after.quiet rfl

/-! ## Machines with such a table -/

def Alternates : Option κ → List (Use κ) → Prop
  | _, [] => True
  | owner, use :: uses => Allowed owner use ∧ Alternates use.leaves uses

variable {σ ε : Type}

def uses (step : σ → ε → σ) (useOf : σ → ε → Option (Use κ)) : σ → List ε → List (Use κ)
  | _, [] => []
  | state, event :: events =>
      (useOf state event).toList ++ uses step useOf (step state event) events

/-- A machine that changes its table only through the handles. -/
structure Follows (step : σ → ε → σ) (table : σ → Table κ) (useOf : σ → ε → Option (Use κ)) :
    Prop where
  kept : ∀ state event, useOf state event = none → table (step state event) = table state
  used : ∀ state event use, useOf state event = some use →
    table (step state event) = (table state).use use

def TidyAfter (step : σ → ε → σ) (table : σ → Table κ) (useOf : σ → ε → Option (Use κ))
    (state : σ) (event : ε) : Prop :=
  ∀ use, useOf state event = some use → Tidy (table (step state event)) use

/-- Along a run the table is as it should be exactly if starts and stops alternate. -/
theorem tidy_iff_alternates {step : σ → ε → σ} {table : σ → Table κ}
    {useOf : σ → ε → Option (Use κ)}
    (follows : Follows step table useOf)
    {state : σ} {owner : Option κ} (owned : Owned (table state) owner) (events : List ε) :
    Machine.Along step (TidyAfter step table useOf) state events ↔
      Alternates owner (uses step useOf state events) := by
  induction events generalizing state owner with
  | nil => exact iff_of_true (Machine.along_nil _ _ _) trivial
  | cons event events ih =>
      rw [Machine.along_cons, uses]
      cases found : useOf state event with
      | none =>
          have same := follows.kept state event found
          rw [Option.toList_none, List.nil_append]
          have later : Owned (table (step state event)) owner := by
            rw [same]
            exact owned
          refine (and_iff_right ?_).trans (ih later)
          intro use some
          cases found.symm.trans some
      | some use =>
          have after := follows.used state event use found
          have here : TidyAfter step table useOf state event ↔ Allowed owner use := by
            rw [← owned.tidy_iff use, ← after]
            refine ⟨fun tidy => tidy use found, fun tidy other same => ?_⟩
            cases found.symm.trans same
            exact tidy
          rw [Option.toList_some, List.singleton_append, Alternates, here]
          refine and_congr_right (fun allowed => ih ?_)
          rw [after]
          exact owned.use allowed

/-- While the table is as it should be, some launcher or nobody owns a task. -/
theorem owned_of_tidy {step : σ → ε → σ} {table : σ → Table κ}
    {useOf : σ → ε → Option (Use κ)}
    (follows : Follows step table useOf)
    {state : σ} (owned : ∃ owner, Owned (table state) owner) {first second events : List ε}
    (along : Machine.Along step (TidyAfter step table useOf) state events)
    (split : events = first ++ second) :
    ∃ owner, Owned (table (Machine.run step state first)) owner := by
  refine Machine.along_invariant (fun state => ∃ owner, Owned (table state) owner) ?_ owned
    along split
  rintro state event ⟨owner, owned⟩ tidy
  cases found : useOf state event with
  | none =>
      rw [follows.kept state event found]
      exact ⟨owner, owned⟩
  | some use =>
      have after := follows.used state event use found
      have allowed : Allowed owner use := by
        rw [← owned.tidy_iff use, ← after]
        exact tidy use found
      rw [after]
      exact ⟨use.leaves, owned.use allowed⟩

/-- Without a start, a table without a live task stays so. -/
theorem quiet_of_no_start {step : σ → ε → σ} {table : σ → Table κ}
    {useOf : σ → ε → Option (Use κ)}
    (follows : Follows step table useOf)
    {state : σ} (quiet : (table state).Quiet) {events : List ε}
    (stops : ∀ launcher, Use.start launcher ∉ uses step useOf state events) :
    (table (Machine.run step state events)).Quiet := by
  induction events generalizing state with
  | nil => exact quiet
  | cons event events ih =>
      rw [uses] at stops
      apply ih
      · cases found : useOf state event with
        | none =>
            rw [follows.kept state event found]
            exact quiet
        | some use =>
            rw [follows.used state event use found]
            cases use with
            | start launcher =>
                refine absurd ?_ (stops launcher)
                rw [found]
                exact List.mem_cons_self
            | stop launcher =>
                intro task live
                exact quiet task ((Table.live_stop_iff _ _ _).mp live).1
      · intro launcher later
        exact stops launcher (List.mem_append_right _ later)

end AlienConnection.Library.Handles
