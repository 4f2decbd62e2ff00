import AlienConnection.Subscription.Merge

/-!
# Sources that fail

A failed download is filtered out before the merge, and whatever a document throws
is caught. By then every active profile is retired in memory, and the write-back
stores that. When this does no harm is a condition on the table and the sources.
-/

namespace AlienConnection.Subscription

open Database Library

/-- A source whose document was obtained and parses. -/
def Parses (runtime : Runtime) (feature : Option Profile) : Download → Prop
  | .failed => False
  | .malformed => False
  | .document json => ∃ parser, JsonParser.process runtime feature {} json = .ok parser

def ListedAnywhere (runtime : Runtime) (feature : Option Profile) (downloads : List Download)
    (key : Option String × String) : Prop :=
  Listed ((obtained downloads).flatMap (profilesOf runtime feature)) key ∨
    Listed ((obtained downloads).flatMap (fallbacksOf runtime feature)) key

/-- No profile is retired because of a failure: only when all sources are there and
none lists it, and nothing changes when all sources fail. -/
structure Spares (runtime : Runtime) (table : ProfileTable) (currentId : Int)
    (downloads : List Download) (result : ProfileTable) : Prop where
  retired : ∀ row ∈ table.rows, row.subscription = .active →
    ∀ after ∈ result.rows, after.id = row.id → after.subscription = .obsolete →
      (∀ download ∈ downloads, Parses runtime (featureOf table currentId) download) ∧
        ¬ ListedAnywhere runtime (featureOf table currentId) downloads row.subscriptionKey
  unchanged : downloads ≠ [] →
    (∀ download ∈ downloads, ¬ Parses runtime (featureOf table currentId) download) →
      result.rows = table.rows

structure Covered (runtime : Runtime) (table : ProfileTable) (currentId : Int)
    (downloads : List Download) : Prop where
  merged : ∀ row ∈ table.rows, row.subscription = .active → kept table row = true →
    Listed (syncLog runtime table currentId (obtained downloads)).offered row.subscriptionKey ∨
      (∀ download ∈ downloads, Parses runtime (featureOf table currentId) download) ∧
        ¬ ListedAnywhere runtime (featureOf table currentId) downloads row.subscriptionKey
  single : downloads ≠ [] →
    (∀ download ∈ downloads, ¬ Parses runtime (featureOf table currentId) download) →
      ∀ row ∈ table.rows, ¬ LaterDuplicate table row

/-- Sources that fail leave no trace in the log. -/
theorem run_of_not_parses {runtime : Runtime} {feature : Option Profile}
    {base : ProfileTable} (downloads : List Download)
    (failed : ∀ download ∈ downloads, ¬ Parses runtime feature download) :
    Log.run base runtime feature (obtained downloads) = {} := by
  unfold Log.run obtained
  induction downloads with
  | nil => rfl
  | cons download rest ih =>
      have restFailed : ∀ other ∈ rest, ¬ Parses runtime feature other := fun other member =>
        failed other (List.mem_cons_of_mem _ member)
      cases download with
      | failed => exact ih restFailed
      | malformed => exact ih restFailed
      | document json =>
          rw [List.filterMap_cons, List.foldl_cons, Log.absorb, JsonParser.parseJson]
          cases processed : JsonParser.process runtime feature {} json with
          | error message => exact ih restFailed
          | ok parser => exact absurd ⟨parser, processed⟩ (failed _ List.mem_cons_self)

section

variable {runtime : Runtime} {table result : ProfileTable} {currentId : Int}
  {downloads : List Download}

/-- When all sources fail, all that happens is that duplicates go and active
profiles retire. -/
theorem rows_of_not_parses
    (rows : result.rows =
      (syncLog runtime table currentId (obtained downloads)).finalRows (baseOf table))
    (failed : ∀ download ∈ downloads, ¬ Parses runtime (featureOf table currentId) download) :
    result.rows = (table.rows.filter (kept table)).map retire := by
  rw [rows, syncLog, run_of_not_parses downloads failed]
  exact (Records.start table).memory.symm

theorem Spares.covered (spares : Spares runtime table currentId downloads result)
    (rows : result.rows =
      (syncLog runtime table currentId (obtained downloads)).finalRows (baseOf table)) :
    Covered runtime table currentId downloads where
  merged := by
    intro row member active isKept
    have isManaged : managed row = true := by simp [managed, active]
    by_cases listed :
        Listed (syncLog runtime table currentId (obtained downloads)).offered row.subscriptionKey
    · exact Or.inl listed
    · have inside : (syncLog runtime table currentId (obtained downloads)).current row ∈
          result.rows := by
        rw [rows]
        exact Log.current_mem member isKept
      have same := Log.sameRow_current (syncLog runtime table currentId (obtained downloads)) row
      refine Or.inr (spares.retired row member active _ inside same.id ?_)
      refine obsolete_of_managed (same.managed.trans isManaged) ?_
      rw [ne_eq, Log.current_active_iff _ isManaged]
      exact listed
  single := by
    intro nonempty failed row member duplicate
    have same := spares.unchanged nonempty failed
    rw [rows_of_not_parses rows failed] at same
    have inside := List.mem_map_of_mem (f := Profile.id) member
    rw [← same, List.map_map] at inside
    obtain ⟨other, otherMember, sameId⟩ := List.mem_map.mp inside
    obtain ⟨otherMember, isKept⟩ := List.mem_filter.mp otherMember
    rw [Function.comp_apply, retire_id] at sameId
    rw [table.eq_of_id_eq otherMember member sameId] at isKept
    obtain ⟨isManaged, earlier, earlierMember, earlierManaged, sameKey, less⟩ := duplicate
    have le := kept_le isKept isManaged earlierMember earlierManaged sameKey
    omega

theorem Covered.spares (covered : Covered runtime table currentId downloads)
    (rows : result.rows =
      (syncLog runtime table currentId (obtained downloads)).finalRows (baseOf table))
    (sound : (syncLog runtime table currentId (obtained downloads)).Sound (baseOf table)) :
    Spares runtime table currentId downloads result where
  retired := by
    intro row member active after afterMember sameId obsolete
    have isManaged : managed row = true := by simp [managed, active]
    rw [rows] at afterMember
    obtain ⟨isKept, became⟩ := Log.origin sound member afterMember sameId
    refine (covered.merged row member active isKept).resolve_left ?_
    intro listed
    rw [became, (Log.current_active_iff _ isManaged).mpr listed] at obsolete
    cases obsolete
  unchanged := by
    intro nonempty failed
    have everyoneKept : ∀ row ∈ table.rows, kept table row = true := by
      intro row member
      by_contra dropped
      exact covered.single nonempty failed row member
        (laterDuplicate_of_not_kept (Bool.eq_false_iff.mpr dropped))
    have nobodyActive : ∀ row ∈ table.rows, retire row = row := by
      intro row member
      rw [retire, if_neg]
      intro active
      rcases covered.merged row member active (everyoneKept row member) with listed | ⟨parses, _⟩
      · rw [syncLog, run_of_not_parses downloads failed] at listed
        obtain ⟨_, none, _⟩ := listed
        cases none
      · obtain ⟨download, downloadMember⟩ := List.exists_mem_of_ne_nil downloads nonempty
        exact failed download downloadMember (parses download downloadMember)
    rw [rows_of_not_parses rows failed, List.filter_eq_self.mpr everyoneKept]
    exact (List.map_congr_left nobodyActive).trans (List.map_id _)

end

/-- **Failing sources.** -/
theorem spares_iff_covered (runtime : Runtime) (table : ProfileTable) (currentId : Int)
    (downloads : List Download) :
    ∃ result profileId,
      createProfilesFromSubscription runtime table currentId (obtained downloads) =
        some (result, profileId) ∧
      (Spares runtime table currentId downloads result ↔
        Covered runtime table currentId downloads) := by
  obtain ⟨result, synced, rows, sound⟩ := sync_rows runtime table currentId (obtained downloads)
  exact ⟨result, remainingId table currentId, synced, fun spares => spares.covered rows,
    fun covered => covered.spares rows sound⟩

def oneActive : ProfileTable :=
  (ProfileManager.createProfile .empty { name := some "a", subscription := .active }).2

/-- The only source cannot be fetched, and the profile it had provided is retired. -/
theorem not_spares_failed :
    ∃ result profileId,
      createProfilesFromSubscription asciiRuntime oneActive 0 (obtained [.failed]) =
        some (result, profileId) ∧
      ¬ Spares asciiRuntime oneActive 0 [.failed] result := by
  obtain ⟨result, synced, rows, _⟩ := sync_rows asciiRuntime oneActive 0 (obtained [.failed])
  have failed : ∀ download ∈ [Download.failed],
      ¬ Parses asciiRuntime (featureOf oneActive 0) download := by
    intro download member
    rw [List.mem_singleton.mp member]
    exact not_false
  refine ⟨result, _, synced, ?_⟩
  intro spares
  have same := spares.unchanged (List.cons_ne_nil _ _) failed
  rw [rows_of_not_parses rows failed] at same
  exact absurd same (by decide)

end AlienConnection.Subscription
