import AlienConnection.Ads.AdManager

/-!
# The server of an advertisement

An advertisement is to be shown on the server on which it was requested. The manager
remembers the server of the last load of a type and compares it with the current one, but
it stores whatever request is answered, and a native advertisement is displayed later than
the comparison.
-/

namespace AlienConnection.Ads.AdManager

open Library

def presented (manager : AdManager) : Event → Option (AdType × Ad)
  | .showAd _ foreground adType =>
      if manager.ipChanged adType || !foreground || adType.format = .native then none
      else (manager.ads adType).map (fun ad => (adType, ad))
  | .display adType resumed finishing =>
      if adType ∈ manager.displays ∧ resumed = true ∧ finishing = false then
        (manager.ads adType).map (fun ad => (adType, ad))
      else none
  | _ => none

/-- With the connection up, an advertisement of a tracked type is put on the screen on the
server on which it was requested. -/
def OnItsServer (manager : AdManager) (event : Event) : Prop :=
  ∀ adType ad, manager.presented event = some (adType, ad) → manager.vvState = true →
    adType.tracked = true → ad.requestedOn = manager.host

def showOn (settings : Settings) (host : String) (adType : AdType) : List Event :=
  [.setVvState true, .setNowVpn host, .showAd settings true adType, .display adType true false]

/-- Every advertisement that the run shows is on its server, and so is every one that
`showAd` shows when it is called at some point of the run, whatever the server is then. -/
def ShownOnItsServer (start : AdManager) (events : List Event) : Prop :=
  Machine.Along AdManager.step OnItsServer start events ∧
    ∀ first second, events = first ++ second → ∀ settings host adType,
      Machine.Along AdManager.step OnItsServer (Machine.run AdManager.step start first)
        (showOn settings host adType)

/-! ## The tracked server -/

/-- The remembered server of each tracked type is the one on which its advertisement was
requested. -/
def Guarded (manager : AdManager) : Prop :=
  ∀ adType ad, adType.tracked = true → manager.ads adType = some ad →
    manager.typeIp adType ≠ "" ∧ manager.typeIp adType = ad.requestedOn

theorem guarded_initial (vvState : Bool) (host : String) : (initial vvState host).Guarded := by
  intro adType ad _ present
  cases present

theorem Guarded.keeps {manager next : AdManager} (guarded : manager.Guarded)
    (keeps : ∀ adType, manager.Keeps next adType) : next.Guarded := by
  intro adType ad tracked present
  rcases keeps adType with ⟨ads, typeIp⟩ | none
  · rw [typeIp]
    rw [ads] at present
    exact guarded adType ad tracked present
  · rw [none] at present
    cases present

/-- Where the check of `showAd` passes, the advertisement belongs to the current server. -/
theorem Guarded.requestedOn_eq {manager : AdManager} (guarded : manager.Guarded)
    {adType : AdType} {ad : Ad} (tracked : adType.tracked = true)
    (present : manager.ads adType = some ad) (connected : manager.vvState = true)
    (passed : manager.ipChanged adType = false) : ad.requestedOn = manager.host := by
  obtain ⟨remembered, same⟩ := guarded adType ad tracked present
  rw [← same]
  simpa [ipChanged, getLoadIp, tracked, connected, remembered] using passed

theorem ipChanged_eq_false_iff {manager : AdManager} {adType : AdType}
    (tracked : adType.tracked = true) (connected : manager.vvState = true) :
    manager.ipChanged adType = false ↔
      manager.typeIp adType = "" ∨ manager.typeIp adType = manager.host := by
  simp [ipChanged, getLoadIp, tracked, connected, or_iff_not_imp_left]

/-- `showAd` leaves no advertisement behind that its check would refuse. -/
theorem showAd_checked (settings : Settings) (foreground : Bool) (adType : AdType)
    (manager : AdManager) :
    (manager.showAd settings foreground adType).ads adType = none ∨
      (manager.showAd settings foreground adType).ipChanged adType = false := by
  rw [showAd]
  split
  next =>
    apply Or.inl
    rcases loadAd_cases settings adType ((manager.clearAd adType).clearLoadIp adType) with
      same | ⟨_, started⟩
    · rw [same]
      exact clearAd_ads adType manager
    · rw [started, startLoad_eq]
      exact clearAd_ads adType _
  next same =>
    apply Or.inr
    rw [Bool.not_eq_true] at same
    split
    next => exact same
    next => split <;> exact same

/-! ## One event -/

/-- What the run has to ensure itself: an advertisement arrives while the server of its own
request is remembered, and a native one is displayed while that server is the current one. -/
def Timely (manager : AdManager) : Event → Prop
  | .onAdLoaded position _ => ∀ request, manager.requests[position]? = some request →
      request.adType.tracked = true →
        manager.typeIp request.adType ≠ "" ∧ manager.typeIp request.adType = request.requestedOn
  | .display adType resumed finishing =>
      adType ∈ manager.displays → resumed = true → finishing = false →
        (manager.ads adType).isSome = true → manager.vvState = true → adType.tracked = true →
          manager.typeIp adType = manager.host
  | _ => True

theorem onAdLoaded_ads {manager : AdManager} {position : Nat} {request : Request}
    (found : manager.requests[position]? = some request) (elapsedRealtime : Int) :
    (manager.onAdLoaded position elapsedRealtime).ads =
      Function.update manager.ads request.adType (some ⟨request.requestedOn⟩) := by
  simp only [onAdLoaded, found, setLoadState]

theorem onAdLoaded_typeIp {manager : AdManager} {position : Nat} {request : Request}
    (found : manager.requests[position]? = some request) (elapsedRealtime : Int) :
    (manager.onAdLoaded position elapsedRealtime).typeIp = manager.typeIp := by
  simp only [onAdLoaded, found, setLoadState]

theorem Guarded.loaded {manager : AdManager} (guarded : manager.Guarded) {position : Nat}
    {request : Request} (found : manager.requests[position]? = some request)
    {elapsedRealtime : Int} (timely : manager.Timely (.onAdLoaded position elapsedRealtime)) :
    (manager.onAdLoaded position elapsedRealtime).Guarded := by
  intro adType ad tracked present
  rw [onAdLoaded_ads found] at present
  rw [onAdLoaded_typeIp found]
  by_cases same : adType = request.adType
  · subst same
    rw [Function.update_self] at present
    cases present
    exact timely request found tracked
  · rw [Function.update_of_ne same] at present
    exact guarded adType ad tracked present

theorem Guarded.effect {manager next : AdManager} (guarded : manager.Guarded) {event : Event}
    (effect : Effect manager event next) (timely : manager.Timely event) : next.Guarded := by
  cases effect with
  | quiet _ _ keeps => exact guarded.keeps keeps
  | started settings adType _ => exact guarded.keeps (keeps_startLoad manager settings adType)
  | loaded elapsedRealtime found => exact guarded.loaded found timely
  | failed _ => exact guarded.keeps (keeps_onAdFailedToLoad manager _)

theorem Guarded.onItsServer {manager : AdManager} (guarded : manager.Guarded) {event : Event}
    (timely : manager.Timely event) : manager.OnItsServer event := by
  intro adType ad shown connected tracked
  cases event with
  | showAd settings foreground shownType =>
      simp only [presented] at shown
      split at shown
      next => cases shown
      next passed =>
        rw [Option.map_eq_some_iff] at shown
        obtain ⟨_, present, same⟩ := shown
        cases same
        simp only [Bool.or_eq_true, not_or, Bool.not_eq_true] at passed
        exact guarded.requestedOn_eq tracked present connected passed.1.1
  | display shownType resumed finishing =>
      simp only [presented] at shown
      split at shown
      next launched =>
        rw [Option.map_eq_some_iff] at shown
        obtain ⟨_, present, same⟩ := shown
        cases same
        obtain ⟨_, own⟩ := guarded adType ad tracked present
        rw [← own]
        exact timely launched.1 launched.2.1 launched.2.2 (by rw [present]; rfl) connected tracked
      next => cases shown
  | _ => cases shown

/-- From a guarded manager, what is shown at once is on its server. -/
theorem Guarded.showOn {manager : AdManager} (guarded : manager.Guarded) (settings : Settings)
    (host : String) (adType : AdType) :
    Machine.Along AdManager.step OnItsServer manager (showOn settings host adType) := by
  have moved : { manager with vvState := true, host := host }.Guarded :=
    guarded.keeps (keeps_of_eq rfl rfl)
  have shown := moved.effect (effect_showAd settings true adType _ (.showAd settings true adType))
    trivial
  simp only [AdManager.showOn, Machine.along_cons]
  refine ⟨guarded.onItsServer trivial, ?_, moved.onItsServer trivial, ?_, Machine.along_nil _ _ _⟩
  · intro _ _ none
    cases none
  · apply shown.onItsServer
    intro _ _ _ present connected tracked
    obtain ⟨ad, present⟩ := Option.isSome_iff_exists.mp present
    rcases showAd_checked settings true adType { manager with vvState := true, host := host } with
      none | passed
    · rw [none] at present
      cases present
    · rw [(shown adType ad tracked present).2]
      exact shown.requestedOn_eq tracked present connected passed

/-- What is shown at once, whatever the server is, gives the tracked server away. -/
theorem requestedOn_of_showOn {manager : AdManager} {settings : Settings} {host : String}
    {adType : AdType} {ad : Ad} (tracked : adType.tracked = true)
    (present : manager.ads adType = some ad)
    (passes : manager.typeIp adType = "" ∨ manager.typeIp adType = host)
    (along : Machine.Along AdManager.step OnItsServer manager (showOn settings host adType)) :
    ad.requestedOn = host := by
  have passed : { manager with vvState := true, host := host }.ipChanged adType = false :=
    (ipChanged_eq_false_iff tracked rfl).mpr passes
  simp only [showOn, Machine.along_cons] at along
  obtain ⟨_, _, direct, later, _⟩ := along
  by_cases native : adType.format = .native
  · have launched : { manager with vvState := true, host := host }.showAd settings true adType =
        { manager with
          vvState := true, host := host, displays := manager.displays ++ [adType] } := by
      simp [showAd, passed, native]
    have shown := later adType ad
    simp only [AdManager.step, launched] at shown
    apply shown ?_ trivial tracked
    simp [presented, present]
  · apply direct adType ad ?_ rfl tracked
    change presented { manager with vvState := true, host := host } _ = _
    simp [presented, passed, native, present]

theorem guarded_of_showOn {manager : AdManager}
    (shown : ∀ settings host adType,
      Machine.Along AdManager.step OnItsServer manager (showOn settings host adType)) :
    manager.Guarded := by
  intro adType ad tracked present
  have on : ∀ host, manager.typeIp adType = "" ∨ manager.typeIp adType = host →
      ad.requestedOn = host := fun host passes =>
    requestedOn_of_showOn tracked present passes (shown (Settings.unlimited []) host adType)
  refine ⟨?_, (on _ (Or.inr rfl)).symm⟩
  intro forgotten
  have first := on "a" (Or.inl forgotten)
  have second := on "b" (Or.inl forgotten)
  rw [first] at second
  simp at second

/-! ## Whole runs -/

/-- Every advertisement is shown on its server exactly if each arrives while the server of
its request is remembered, and each native one is displayed while it is still current. -/
theorem shownOnItsServer_iff_timely (vvState : Bool) (host : String) (events : List Event) :
    ShownOnItsServer (initial vvState host) events ↔
      Machine.Along AdManager.step Timely (initial vvState host) events := by
  constructor
  · rintro ⟨along, shown⟩ first event second split
    have before := guarded_of_showOn (shown first (event :: second) split)
    cases event with
    | onAdLoaded position elapsedRealtime =>
        intro request found tracked
        have after := guarded_of_showOn (shown (first ++ [.onAdLoaded position elapsedRealtime])
          second (by rw [split, List.append_assoc]; rfl))
        rw [Machine.run_concat] at after
        have stored := after request.adType ⟨request.requestedOn⟩ tracked
        simp only [AdManager.step, onAdLoaded_ads found, onAdLoaded_typeIp found,
          Function.update_self, forall_const] at stored
        exact stored
    | display adType resumed finishing =>
        intro launched isResumed isFinishing present connected tracked
        obtain ⟨ad, present⟩ := Option.isSome_iff_exists.mp present
        rw [(before adType ad tracked present).2]
        apply along first _ second split adType ad ?_ connected tracked
        simp [presented, launched, isResumed, isFinishing, present]
    | _ => trivial
  · intro timely
    have guarded : ∀ first second, events = first ++ second →
        (Machine.run AdManager.step (initial vvState host) first).Guarded := by
      intro first second split
      exact Machine.along_invariant Guarded
        (fun manager event guarded timely => guarded.effect (effect_step manager event) timely)
        (guarded_initial vvState host) timely split
    refine ⟨?_, ?_⟩
    · intro first event second split
      exact (guarded first _ split).onItsServer (timely first event second split)
    · intro first second split settings shownOn adType
      exact (guarded first second split).showOn settings shownOn adType

/-- A load is in flight when the server changes. `showAd` forgets the server of the load,
and since the load is marked no other one starts. Its advertisement then arrives without a
remembered server, and the next `showAd` shows it on the new one. -/
theorem not_shownOnItsServer_changedServer :
    let settings := Settings.unlimited ['a']
    let present : Event := .showAd settings true .interstitialConnect
    let events : List Event :=
      [.loadAd settings .interstitialConnect, .setNowVpn "b", present, .onAdLoaded 0 0, present]
    let before := Machine.run AdManager.step (initial true "a") (events.take 4)
    before.presented present = some (.interstitialConnect, ⟨"a"⟩) ∧ before.vvState = true ∧
      before.host = "b" ∧ ¬ ShownOnItsServer (initial true "a") events := by
  intro settings present events before
  have presents : before.presented present = some (.interstitialConnect, ⟨"a"⟩) := rfl
  refine ⟨presents, rfl, rfl, ?_⟩
  rintro ⟨along, _⟩
  have same : "a" = "b" := along (events.take 4) present [] rfl _ _ presents rfl rfl
  simp at same

end AlienConnection.Ads.AdManager
