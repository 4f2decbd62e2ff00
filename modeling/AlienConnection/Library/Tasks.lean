import Mathlib.Data.List.Basic
import Mathlib.Data.List.GetD

/-!
# Tables of launched tasks

Launched tasks are kept in the order of their launch and are never removed, so
the index of a task is its identity. `Solo` says that only the newest task can
still be live; `Quiet` says that none is. Both are closed under the two
operations a launcher uses: appending a new task and replacing one in place.
-/

namespace AlienConnection.Library.Tasks

variable {τ : Type}

def Quiet (live : τ → Bool) (tasks : List τ) : Prop :=
  ∀ (index : Nat) task, tasks[index]? = some task → live task = false

def Solo (live : τ → Bool) (tasks : List τ) : Prop :=
  ∀ (index : Nat) task,
    tasks[index]? = some task → live task = true → index + 1 = tasks.length

theorem quiet_nil (live : τ → Bool) : Quiet live [] := by
  intro index task found
  cases found

theorem Quiet.not_live {live : τ → Bool} {tasks : List τ} (quiet : Quiet live tasks)
    {index : Nat} {task : τ} (found : tasks[index]? = some task) (alive : live task = true) :
    False := by
  rw [quiet index task found] at alive
  cases alive

theorem Quiet.solo {live : τ → Bool} {tasks : List τ} (quiet : Quiet live tasks) :
    Solo live tasks := by
  intro index task found alive
  exact (quiet.not_live found alive).elim

/-- Looking up in a table after a launch gives an old task or the new one. -/
theorem getElem?_launch_cases {tasks : List τ} {task other : τ} {index : Nat}
    (found : (tasks ++ [task])[index]? = some other) :
    tasks[index]? = some other ∨ (index = tasks.length ∧ other = task) := by
  rcases Nat.lt_or_ge index tasks.length with inside | outside
  · rw [List.getElem?_append_left inside] at found
    exact Or.inl found
  · rw [List.getElem?_append_right outside, List.getElem?_singleton] at found
    split at found
    next first => exact Or.inr ⟨by omega, (Option.some.inj found).symm⟩
    next => cases found

/-- A launch on a quiet table leaves only the new task possibly live. -/
theorem Quiet.launch {live : τ → Bool} {tasks : List τ} (quiet : Quiet live tasks)
    (task : τ) : Solo live (tasks ++ [task]) := by
  intro index other found alive
  rw [List.length_append, List.length_singleton]
  rcases getElem?_launch_cases found with before | ⟨last, _⟩
  · exact (quiet.not_live before alive).elim
  · rw [last]

/-- Looking up a replaced task gives the replacement or an untouched task. -/
theorem getElem?_set_cases {tasks : List τ} {position index : Nat} {task other : τ}
    (found : (tasks.set position task)[index]? = some other) :
    (index = position ∧ other = task) ∨ (index ≠ position ∧ tasks[index]? = some other) := by
  by_cases same : position = index
  · subst same
    rw [List.getElem?_set_self'] at found
    cases old : tasks[position]? with
    | none => simp [old] at found
    | some previous =>
        rw [old] at found
        exact Or.inl ⟨rfl, (Option.some.inj found).symm⟩
  · rw [List.getElem?_set_ne same] at found
    exact Or.inr ⟨fun eq => same eq.symm, found⟩

/-- Replacing the newest task keeps the table solo. -/
theorem Solo.replace {live : τ → Bool} {tasks : List τ} (solo : Solo live tasks)
    {position : Nat} (newest : position + 1 = tasks.length) (task : τ) :
    Solo live (tasks.set position task) := by
  intro index other found alive
  rw [List.length_set]
  rcases getElem?_set_cases found with ⟨same, _⟩ | ⟨_, untouched⟩
  · rw [same]
    exact newest
  · exact solo index other untouched alive

/-- Replacing the newest task by a dead one leaves nothing live. -/
theorem Solo.finish {live : τ → Bool} {tasks : List τ} (solo : Solo live tasks)
    {position : Nat} (newest : position + 1 = tasks.length) {task : τ}
    (dead : live task = false) : Quiet live (tasks.set position task) := by
  intro index other found
  rcases getElem?_set_cases found with ⟨_, same⟩ | ⟨differs, untouched⟩
  · rw [same]
    exact dead
  · cases alive : live other with
    | false => rfl
    | true =>
        have last := solo index other untouched alive
        omega

/-- Replacing a task by a dead one keeps a quiet table quiet. -/
theorem Quiet.replace {live : τ → Bool} {tasks : List τ} (quiet : Quiet live tasks)
    {position : Nat} {task : τ} (dead : live task = false) :
    Quiet live (tasks.set position task) := by
  intro index other found
  rcases getElem?_set_cases found with ⟨_, same⟩ | ⟨_, untouched⟩
  · rw [same]
    exact dead
  · exact quiet index other untouched

/-- A solo table has at most one live task. -/
theorem Solo.count_le_one {live : τ → Bool} {tasks : List τ} (solo : Solo live tasks) :
    (tasks.filter live).length ≤ 1 := by
  induction tasks with
  | nil => exact Nat.zero_le 1
  | cons first rest ih =>
      have tail : Solo live rest := by
        intro index task found alive
        have shifted := solo (index + 1) task (by rwa [List.getElem?_cons_succ]) alive
        rw [List.length_cons] at shifted
        omega
      cases alive : live first with
      | false =>
          rw [List.filter_cons_of_neg (by rw [alive]; exact Bool.false_ne_true)]
          exact ih tail
      | true =>
          have single := solo 0 first rfl alive
          have empty : rest = [] := List.eq_nil_of_length_eq_zero (by
            rw [List.length_cons] at single
            omega)
          rw [List.filter_cons_of_pos alive, empty]
          exact Nat.le_refl 1

end AlienConnection.Library.Tasks
