import AlienConnection.Subscription.Ledger

/-!
# The preprocessing phase

After the profiles `done` have been visited, the table lacks the later duplicates
among them, the objects of the others are retired, and the map of subscriptions
files exactly the first managed profile of every key.
-/

namespace AlienConnection.Subscription

open Database Library

/-- The state after the profiles `done` of a table have been visited. -/
structure Marked (table : ProfileTable) (currentId : Int) (done : List Profile)
    (state : SyncState) : Prop where
  rows : state.table.rows =
    table.rows.filter (fun row => decide (row ∉ done) || kept table row)
  sequence : state.table.sequence = table.sequence
  objects : state.objects =
    table.rows.map (fun row => if row ∈ done ∧ kept table row = true then retire row else row)
  filed : ∀ key id, LinkedMap.get key state.subscriptions = some id ↔
    ∃ row ∈ done, kept table row = true ∧ managed row = true ∧ row.subscriptionKey = key ∧
      row.id = id
  pending : ∀ id, id ∈ state.toUpdate ↔
    ∃ row ∈ done, kept table row = true ∧ row.subscription = .active ∧ row.id = id
  current : state.profileId =
    if done.any (fun row => decide (row.id = currentId) && !kept table row) then 0 else currentId

namespace Marked

variable {table : ProfileTable} {currentId : Int} {done rest : List Profile} {state : SyncState}
  {profile : Profile}

theorem start (table : ProfileTable) (currentId : Int) :
    Marked table currentId []
      { table := table, objects := table.listAll, profileId := currentId } where
  rows := by simp
  sequence := rfl
  objects := by simp [ProfileTable.listAll]
  filed := by simp [LinkedMap.get]
  pending := by simp
  current := rfl

/-- A managed profile is kept exactly when its key has not been filed yet. -/
theorem kept_iff (marked : Marked table currentId done state)
    (split : table.rows = done ++ profile :: rest) (isManaged : managed profile = true) :
    kept table profile = true ↔
      LinkedMap.get profile.subscriptionKey state.subscriptions = none := by
  have member : profile ∈ table.rows := by simp [split]
  have ordered := table.ordered
  rw [split, List.pairwise_append, List.pairwise_cons] at ordered
  constructor
  · intro isKept
    cases found : LinkedMap.get profile.subscriptionKey state.subscriptions with
    | none => rfl
    | some id =>
        obtain ⟨row, rowDone, _, rowManaged, sameKey, _⟩ := (marked.filed _ id).mp found
        have rowMember : row ∈ table.rows := by simp [split, rowDone]
        have le := kept_le isKept isManaged rowMember rowManaged sameKey
        have less := ordered.2.2 row rowDone profile List.mem_cons_self
        omega
  · intro missing
    by_contra dropped
    cases found : holder table profile.subscriptionKey with
    | none => exact holder_eq_none found member isManaged rfl
    | some first =>
        obtain ⟨firstMember, firstManaged, sameKey⟩ := holder_mem found
        have firstKept := kept_of_holder found
        have le := kept_le firstKept firstManaged member isManaged sameKey.symm
        have before : first ∈ done := by
          rw [split] at firstMember
          rcases List.mem_append.mp firstMember with before | after
          · exact before
          · rcases List.mem_cons.mp after with here | behind
            · rw [here] at firstKept
              exact absurd firstKept dropped
            · have less := ordered.2.1.1 first behind
              omega
        have filed := (marked.filed profile.subscriptionKey first.id).mpr
          ⟨first, before, firstKept, firstManaged, sameKey, rfl⟩
        rw [missing] at filed
        cases filed

theorem not_done (split : table.rows = done ++ profile :: rest) : profile ∉ done := by
  intro before
  have ordered := table.ordered
  rw [split, List.pairwise_append] at ordered
  exact Int.lt_irrefl _ (ordered.2.2 profile before profile List.mem_cons_self)

theorem objects_ids (marked : Marked table currentId done state) :
    state.objects.map Profile.id = table.rows.map Profile.id := by
  rw [marked.objects, List.map_map]
  refine List.map_congr_left ?_
  intro row _
  rw [Function.comp_apply]
  split
  · exact retire_id row
  · rfl

/-- Visiting a profile that stays. -/
theorem keep (marked : Marked table currentId done state)
    (split : table.rows = done ++ profile :: rest) (isKept : kept table profile = true)
    {next : SyncState} (sameTable : next.table = state.table)
    (objects : next.objects = Rows.replace Profile.id (retire profile) state.objects)
    (filed : ∀ key id, LinkedMap.get key next.subscriptions = some id ↔
      LinkedMap.get key state.subscriptions = some id ∨
        (managed profile = true ∧ profile.subscriptionKey = key ∧ profile.id = id))
    (pending : ∀ id, id ∈ next.toUpdate ↔
      id ∈ state.toUpdate ∨ (profile.subscription = .active ∧ profile.id = id))
    (current : next.profileId = state.profileId) :
    Marked table currentId (done ++ [profile]) next := by
  have member : profile ∈ table.rows := by simp [split]
  constructor
  case rows =>
    rw [sameTable, marked.rows]
    refine List.filter_congr ?_
    intro row _
    by_cases here : row = profile
    · simp [here, isKept]
    · simp [here]
  case sequence => rw [sameTable, marked.sequence]
  case objects =>
    rw [objects, marked.objects, Rows.replace, List.map_map]
    refine List.map_congr_left ?_
    intro row rowMember
    by_cases here : row = profile
    · simp [here, not_done split, isKept, retire_id]
    · have differs : row.id ≠ profile.id := fun same =>
        here (table.eq_of_id_eq rowMember member same)
      have differs' : (if row ∈ done ∧ kept table row = true then retire row else row).id ≠
          (retire profile).id := by
        split <;> simpa only [retire_id] using differs
      rw [Function.comp_apply, if_neg differs']
      simp [here]
  case filed =>
    intro key id
    simp [filed, marked.filed, or_and_right, exists_or, isKept]
  case pending =>
    intro id
    simp [pending, marked.pending, or_and_right, exists_or, isKept]
  case current => simp [current, marked.current, isKept]

/-- Visiting a later duplicate. -/
theorem drop (marked : Marked table currentId done state)
    (split : table.rows = done ++ profile :: rest) (dropped : kept table profile = false) :
    Marked table currentId (done ++ [profile])
      { state with
        table := state.table.erase profile.id
        profileId := if currentId = profile.id then 0 else state.profileId } := by
  have member : profile ∈ table.rows := by simp [split]
  constructor
  case rows =>
    rw [ProfileTable.erase_rows, marked.rows, Rows.remove, List.filter_filter]
    refine List.filter_congr ?_
    intro row rowMember
    by_cases here : row = profile
    · simp [here, dropped]
    · have differs : row.id ≠ profile.id := fun same =>
        here (table.eq_of_id_eq rowMember member same)
      simp [here, differs]
  case sequence => exact marked.sequence
  case objects =>
    rw [marked.objects]
    refine List.map_congr_left ?_
    intro row _
    by_cases here : row = profile
    · simp [here, dropped]
    · simp [here]
  case filed =>
    intro key id
    simp [marked.filed, or_and_right, exists_or, dropped]
  case pending =>
    intro id
    simp [marked.pending, or_and_right, exists_or, dropped]
  case current =>
    by_cases same : currentId = profile.id
    · simp [same, dropped]
    · have other : ¬ profile.id = currentId := fun eq => same eq.symm
      simp [same, other, marked.current]

/-- One profile. The check of a deletion never fails. -/
theorem preprocess (marked : Marked table currentId done state)
    (split : table.rows = done ++ profile :: rest) :
    ∃ next, state.preprocess currentId profile = some next ∧
      Marked table currentId (done ++ [profile]) next := by
  have member : profile ∈ table.rows := by simp [split]
  have present : profile ∈ state.objects := by
    rw [marked.objects]
    exact List.mem_map.mpr ⟨profile, member, if_neg (fun both => not_done split both.1)⟩
  have distinct : (state.objects.map Profile.id).Nodup := by
    rw [marked.objects_ids]
    exact table.ids_nodup
  -- only an active profile has an object that changes
  have unchanged : profile.subscription ≠ .active →
      state.objects = Rows.replace Profile.id (retire profile) state.objects := by
    intro other
    rw [retire, if_neg other, Rows.replace_eq_self distinct present]
  unfold SyncState.preprocess
  by_cases user : profile.subscription = .userConfigured
  · have isUser : managed profile = false := by simp [managed, user]
    rw [if_pos user]
    refine ⟨state, rfl, marked.keep split (kept_of_user table isUser) rfl (unchanged ?_) ?_ ?_ rfl⟩
    · rw [user]
      exact SubscriptionStatus.noConfusion
    · simp [isUser]
    · simp [user]
  · have isManaged : managed profile = true := by simp [managed, user]
    rw [if_neg user]
    cases found : LinkedMap.get profile.subscriptionKey state.subscriptions with
    | some id =>
        have dropped : kept table profile = false := by
          rw [← Bool.not_eq_true, marked.kept_iff split isManaged, found]
          exact Option.some_ne_none id
        have stored : profile ∈ state.table.rows := by
          rw [marked.rows, List.mem_filter]
          exact ⟨member, by simp [not_done split]⟩
        dsimp only
        rw [ProfileManager.delProfile_of_mem stored]
        exact ⟨_, rfl, marked.drop split dropped⟩
    | none =>
        have isKept := (marked.kept_iff split isManaged).mpr found
        have filed : ∀ key id,
            LinkedMap.get key
                (LinkedMap.put profile.subscriptionKey profile.id state.subscriptions) = some id ↔
              LinkedMap.get key state.subscriptions = some id ∨
                (managed profile = true ∧ profile.subscriptionKey = key ∧ profile.id = id) := by
          intro key id
          by_cases same : key = profile.subscriptionKey
          · rw [same, LinkedMap.get_put_self, found]
            simp [isManaged]
          · have other : ¬ profile.subscriptionKey = key := fun eq => same eq.symm
            rw [LinkedMap.get_put_other same]
            simp [other]
        dsimp only
        by_cases active : profile.subscription = .active
        · rw [if_pos active]
          refine ⟨_, rfl, marked.keep split isKept rfl ?_ filed ?_ rfl⟩
          · rw [retire, if_pos active]
          · intro id
            simp [active, or_comm, eq_comm]
        · rw [if_neg active]
          refine ⟨_, rfl, marked.keep split isKept rfl (unchanged active) filed ?_ rfl⟩
          simp [active]

/-- The whole phase. -/
theorem preprocessAll (marked : Marked table currentId done state)
    (split : table.rows = done ++ rest) :
    ∃ next, state.preprocessAll currentId rest = some next ∧
      Marked table currentId table.rows next := by
  induction rest generalizing done state with
  | nil =>
      rw [List.append_nil] at split
      rw [split]
      exact ⟨state, rfl, marked⟩
  | cons profile rest ih =>
      obtain ⟨next, visited, step⟩ := marked.preprocess split
      rw [SyncState.preprocessAll, visited]
      exact ih step (by rw [split, List.append_assoc]; rfl)

end Marked

end AlienConnection.Subscription
