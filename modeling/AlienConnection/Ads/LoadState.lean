import AlienConnection.Ads.AdManager
import Mathlib.Data.List.Perm.Basic

/-!
# The marks of the loads

`nowLoadState` marks a type from the start of a load. Each callback takes the mark away,
also the one that then requests the next entry of the list. So the marks tell which types
have a request in flight exactly as long as no load goes on after a failure.
-/

namespace AlienConnection.Ads.AdManager

open Library

def inFlight (adType : AdType) (manager : AdManager) : Nat :=
  manager.requests.countP (fun request => request.adType = adType)

/-- The mark of every type tells whether a request is in flight, and no type has two. -/
def Accurate (manager : AdManager) : Prop :=
  ∀ adType,
    (manager.nowLoadState adType = true ↔
      ∃ request ∈ manager.requests, request.adType = adType) ∧
    manager.inFlight adType ≤ 1

theorem accurate_iff_inFlight (manager : AdManager) :
    manager.Accurate ↔
      ∀ adType, manager.inFlight adType = (manager.nowLoadState adType).toNat := by
  have present : ∀ adType, (∃ request ∈ manager.requests, request.adType = adType) ↔
      0 < manager.inFlight adType := by
    intro adType
    simp only [inFlight, List.countP_pos_iff, decide_eq_true_eq]
  constructor
  · intro accurate adType
    obtain ⟨mark, single⟩ := accurate adType
    rw [present] at mark
    cases loading : manager.nowLoadState adType with
    | false =>
        rw [loading] at mark
        have none : ¬ 0 < manager.inFlight adType := fun some => (nomatch mark.mpr some)
        simp only [Bool.toNat_false]
        omega
    | true =>
        have some := mark.mp loading
        simp only [Bool.toNat_true]
        omega
  · intro counts adType
    rw [present, counts adType]
    cases manager.nowLoadState adType <;> simp

theorem accurate_initial (vvState : Bool) (host : String) : (initial vvState host).Accurate := by
  rw [accurate_iff_inFlight]
  intro adType
  rfl

/-! ## One event -/

theorem inFlight_request (adType : AdType) (adUnitIdList : Text) (index : Nat)
    (manager : AdManager) (other : AdType) :
    (manager.request adType adUnitIdList index).inFlight other =
      manager.inFlight other + if adType = other then 1 else 0 := by
  simp only [inFlight, request, List.countP_append, List.countP_singleton, decide_eq_true_eq]

theorem inFlight_eraseIdx {manager : AdManager} {position : Nat} {request : Request}
    (found : manager.requests[position]? = some request) (adType : AdType) :
    manager.inFlight adType =
      (manager.requests.eraseIdx position).countP (fun other => other.adType = adType) +
        if request.adType = adType then 1 else 0 := by
  obtain ⟨inside, same⟩ := List.getElem?_eq_some_iff.mp found
  have moved := List.getElem_cons_eraseIdx_perm inside
  rw [inFlight, ← moved.countP_eq, same, List.countP_cons]
  simp only [decide_eq_true_eq]

/-- A load starts only for a type without a mark, and marks it. -/
theorem Accurate.started {manager : AdManager} (accurate : manager.Accurate)
    (settings : Settings) {adType : AdType} (idle : manager.nowLoadState adType = false) :
    ((manager.clearAd adType).startLoad settings adType).Accurate := by
  rw [accurate_iff_inFlight] at accurate ⊢
  intro other
  have before := accurate other
  rw [startLoad_eq, inFlight_request]
  change manager.inFlight other + _ =
    (Function.update manager.nowLoadState adType true other).toNat
  by_cases same : adType = other
  · subst same
    simp only [before, idle, Function.update_self, Bool.toNat_false, Bool.toNat_true, if_true]
  · rw [Function.update_of_ne (Ne.symm same), before, if_neg same, Nat.add_zero]

/-- The manager after a callback has taken a request and its mark away. -/
theorem Accurate.answered {manager : AdManager} (accurate : manager.Accurate) {position : Nat}
    {request : Request} (found : manager.requests[position]? = some request) (adType : AdType) :
    (manager.requests.eraseIdx position).countP (fun other => other.adType = adType) =
      (Function.update manager.nowLoadState request.adType false adType).toNat := by
  have before := (accurate_iff_inFlight manager).mp accurate adType
  have counted := inFlight_eraseIdx found adType
  by_cases same : request.adType = adType
  · subst same
    rw [if_pos rfl] at counted
    have single := (accurate request.adType).2
    rw [Function.update_self, Bool.toNat_false]
    omega
  · rw [if_neg same] at counted
    rw [Function.update_of_ne (Ne.symm same), ← before, counted, Nat.add_zero]

theorem Accurate.loaded {manager : AdManager} (accurate : manager.Accurate) {position : Nat}
    {request : Request} (found : manager.requests[position]? = some request)
    (elapsedRealtime : Int) : (manager.onAdLoaded position elapsedRealtime).Accurate := by
  rw [accurate_iff_inFlight]
  intro adType
  simp only [onAdLoaded, found]
  exact accurate.answered found adType

/-- After a failure the marks are right exactly if the load ends there. -/
theorem Accurate.failed_iff {manager : AdManager} (accurate : manager.Accurate) {position : Nat}
    {request : Request} (found : manager.requests[position]? = some request) :
    (manager.onAdFailedToLoad position).Accurate ↔
      manager.Exhausted request.adType request.adUnitIdList (request.currentIndex + 1) := by
  have answered := accurate.answered found
  simp only [onAdFailedToLoad, found]
  rcases load_cases request.adType request.adUnitIdList (request.currentIndex + 1)
      ({ manager with requests := manager.requests.eraseIdx position }.setLoadState
        request.adType false) with ⟨ended, same⟩ | ⟨left, retried, index, same⟩
  · refine ⟨fun _ => ended, fun _ => ?_⟩
    rw [same, accurate_iff_inFlight]
    intro adType
    simp only [setLoadState, Function.update_idem]
    exact answered adType
  · refine ⟨fun after => ?_, fun ended => absurd ended left⟩
    -- The request is counted, but the callback has taken the mark of its type away.
    have counted := (accurate_iff_inFlight _).mp after request.adType
    rw [same, inFlight_request, if_pos rfl] at counted
    change _ + 1 =
      (Function.update manager.nowLoadState request.adType false request.adType).toNat at counted
    rw [Function.update_self, Bool.toNat_false] at counted
    cases counted

/-! ## Whole runs -/

/-- A failure ends its load: its entry is the last of the list, and for an advertisement
at the start of the application the list is not tried again. -/
def EndsLoad (manager : AdManager) : Event → Prop
  | .onAdFailedToLoad position => ∀ request, manager.requests[position]? = some request →
      manager.Exhausted request.adType request.adUnitIdList (request.currentIndex + 1)
  | _ => True

theorem Accurate.effect {manager next : AdManager} (accurate : manager.Accurate)
    {event : Event} (effect : Effect manager event next) (ends : manager.EndsLoad event) :
    next.Accurate := by
  cases effect with
  | quiet requests flags _ =>
      rw [accurate_iff_inFlight] at accurate ⊢
      intro adType
      rw [inFlight, requests, flags]
      exact accurate adType
  | started settings adType idle => exact accurate.started settings idle
  | loaded elapsedRealtime found => exact accurate.loaded found elapsedRealtime
  | failed found => exact (accurate.failed_iff found).mpr (ends _ found)

theorem Accurate.step_iff {manager : AdManager} (accurate : manager.Accurate) (event : Event) :
    (manager.step event).Accurate ↔ manager.EndsLoad event := by
  refine ⟨fun after => ?_, accurate.effect (effect_step manager event)⟩
  cases event with
  | onAdFailedToLoad position =>
      intro request found
      exact (accurate.failed_iff found).mp after
  | _ => trivial

def MarksAccurate (start : AdManager) (events : List Event) : Prop :=
  ∀ first second, events = first ++ second →
    (Machine.run AdManager.step start first).Accurate

/-- The marks are accurate throughout a run exactly if every failure ends its load. -/
theorem marksAccurate_iff_endsLoad (vvState : Bool) (host : String) (events : List Event) :
    MarksAccurate (initial vvState host) events ↔
      Machine.Along AdManager.step EndsLoad (initial vvState host) events := by
  have kept : ∀ (manager : AdManager) (event : Event), manager.Accurate →
      ((manager.step event).Accurate ↔ manager.EndsLoad event) := fun _ event accurate =>
    accurate.step_iff event
  exact Machine.throughout_iff_along kept (accurate_initial vvState host) events

/-- The first of two entries fails. The second is then in flight without a mark, so another
`loadAd` brings a second request of the type. -/
theorem not_marksAccurate_failedEntry :
    let settings := Settings.unlimited ['a', '&', 'b']
    let events : List Event := [.loadAd settings .interstitialConnect, .onAdFailedToLoad 0,
      .loadAd settings .interstitialConnect]
    let after (count : Nat) := Machine.run AdManager.step (initial true "a") (events.take count)
    ((after 2).nowLoadState .interstitialConnect = false ∧
        (after 2).inFlight .interstitialConnect = 1) ∧
      (after 3).inFlight .interstitialConnect = 2 ∧
      ¬ MarksAccurate (initial true "a") events := by
  intro settings events after
  have two : (after 3).inFlight .interstitialConnect = 2 := rfl
  refine ⟨⟨rfl, rfl⟩, two, ?_⟩
  intro accurate
  have single := (accurate (events.take 3) [] rfl .interstitialConnect).2
  change (after 3).inFlight .interstitialConnect ≤ 1 at single
  omega

end AlienConnection.Ads.AdManager
