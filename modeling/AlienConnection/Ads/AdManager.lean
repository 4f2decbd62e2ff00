import AlienConnection.Library.Machine
import AlienConnection.Library.Text
import Mathlib.Logic.Function.Basic

/-!
# The advertisement manager

`AdManager` keeps one advertisement for each type. A load walks through a list of unit
identifiers, one request after the other, and the answers come back as callbacks. Every
call and every callback is an event, so an interleaving is a list of events.
-/

namespace AlienConnection.Ads

open Library

/-- The types of `AdType`, where `dis` stands for the types that are used while the
connection is down. -/
inductive AdType where
  | appOpen | nativeHome | nativeResult
  | interstitialConnect | interstitialService | interstitialResult
  | appOpenDis | nativeHomeDis | nativeResultDis
  | interstitialServiceDis | interstitialResultDis
  deriving DecidableEq, Repr

inductive Format where
  | appOpen | native | interstitial
  deriving DecidableEq, Repr

inductive UnitKey where
  | op | homenv | resultnv | cnctiv | servivback | resivback
  deriving DecidableEq, Repr

namespace AdType

def format : AdType → Format
  | .appOpen | .appOpenDis => .appOpen
  | .nativeHome | .nativeHomeDis | .nativeResult | .nativeResultDis => .native
  | .interstitialConnect | .interstitialService | .interstitialResult
  | .interstitialServiceDis | .interstitialResultDis => .interstitial

/-- The types that have a variable for the host of their load. -/
def tracked : AdType → Bool
  | .appOpen | .nativeHome | .nativeResult
  | .interstitialConnect | .interstitialService | .interstitialResult => true
  | .appOpenDis | .nativeHomeDis | .nativeResultDis
  | .interstitialServiceDis | .interstitialResultDis => false

def unitKey : AdType → UnitKey
  | .appOpen | .appOpenDis => .op
  | .nativeHome | .nativeHomeDis => .homenv
  | .nativeResult | .nativeResultDis => .resultnv
  | .interstitialConnect => .cnctiv
  | .interstitialService | .interstitialServiceDis => .servivback
  | .interstitialResult | .interstitialResultDis => .resivback

def getAdMinType (adType : AdType) : Bool :=
  adType = .interstitialResult || adType = .interstitialResultDis || adType = .nativeHome ||
    adType = .nativeHomeDis || adType = .interstitialConnect

/-- The types that are loaded for a user of the black list too. -/
def spared (adType : AdType) : Bool :=
  adType = .appOpen || adType = .appOpenDis || adType = .nativeResult ||
    adType = .nativeResultDis

end AdType

/-- The unit identifiers. Both maps have every key, since what the server sends is merged
with the maps of the asset. -/
structure AdConfig where
  sre : UnitKey → Text
  lcl : UnitKey → Text

structure Settings where
  /-- The limits of the day are reached. -/
  caoShow : Bool := false
  blackData : Bool := false
  adminPing : Bool := false
  elapsedRealtime : Int := 0
  adConfig : AdConfig

def Settings.unlimited (adList : Text) : Settings where
  adConfig := ⟨fun _ => adList, fun _ => adList⟩

def getAdmobIdList (adList : Text) : List Text := adList.splitOn '&'

theorem getAdmobIdList_ne_nil (adList : Text) : getAdmobIdList adList ≠ [] :=
  List.splitOn_ne_nil '&' adList

/-- A request that has not been answered, with the host of the server when it was made. -/
structure Request where
  adType : AdType
  adUnitIdList : Text
  currentIndex : Nat
  requestedOn : String
  deriving DecidableEq, Repr

structure Ad where
  requestedOn : String
  deriving DecidableEq, Repr

structure AdManager where
  vvState : Bool
  /-- `DataUtils.getNowVpn().host`. -/
  host : String
  isFirstLoad : Bool := false
  ads : AdType → Option Ad := fun _ => none
  lastLoadTime : AdType → Option Int := fun _ => none
  nowLoadState : AdType → Bool := fun _ => false
  /-- `openTypeIp`, `homeTypeIp` and so on. -/
  typeIp : AdType → String := fun _ => ""
  requests : List Request := []
  /-- The native advertisements whose display is launched and has not run. -/
  displays : List AdType := []

namespace AdManager

def cacheDuration : Int := 3600000

def isCacheExpired (settings : Settings) (adType : AdType) (manager : AdManager) : Bool :=
  settings.elapsedRealtime - (manager.lastLoadTime adType).getD 0 > cacheDuration

def getAdUnitId (settings : Settings) (adType : AdType) (manager : AdManager) : Text :=
  if manager.vvState then settings.adConfig.sre adType.unitKey
  else settings.adConfig.lcl adType.unitKey

def clearAd (adType : AdType) (manager : AdManager) : AdManager :=
  { manager with ads := Function.update manager.ads adType none }

def getLoadIp (adType : AdType) (manager : AdManager) : String :=
  if adType.tracked then manager.typeIp adType else ""

def setLoadIp (adType : AdType) (host : String) (manager : AdManager) : AdManager :=
  { manager with
    typeIp :=
      if adType.tracked then Function.update manager.typeIp adType host else manager.typeIp }

def clearLoadIp (adType : AdType) (manager : AdManager) : AdManager :=
  manager.setLoadIp adType ""

def setLoadState (adType : AdType) (loading : Bool) (manager : AdManager) : AdManager :=
  { manager with nowLoadState := Function.update manager.nowLoadState adType loading }

/-- The check of `loadAd` and `showAd`: the load was made on another server. -/
def ipChanged (adType : AdType) (manager : AdManager) : Bool :=
  manager.vvState && manager.getLoadIp adType ≠ "" && manager.getLoadIp adType ≠ manager.host

/-! ## Loading -/

/-- The call of the library that ends in one of the two callbacks. -/
def request (adType : AdType) (adUnitIdList : Text) (currentIndex : Nat)
    (manager : AdManager) : AdManager :=
  { manager with
    requests := manager.requests ++ [⟨adType, adUnitIdList, currentIndex, manager.host⟩] }

def loadAppOpenAdAgain (adType : AdType) (adUnitIdList : Text) (currentIndex : Nat)
    (manager : AdManager) : AdManager :=
  if (getAdmobIdList adUnitIdList).length ≤ currentIndex then manager.setLoadState adType false
  else manager.request adType adUnitIdList currentIndex

/-- The first list of the process that fails as a whole is tried a second time. -/
def loadAppOpenAd (adType : AdType) (adUnitIdList : Text) (currentIndex : Nat)
    (manager : AdManager) : AdManager :=
  if (getAdmobIdList adUnitIdList).length ≤ currentIndex ∧ manager.isFirstLoad = false then
    { manager with isFirstLoad := true }.loadAppOpenAdAgain adType adUnitIdList 0
  else manager.loadAppOpenAdAgain adType adUnitIdList currentIndex

/-- The common body of the loaders of native and interstitial advertisements. -/
def loadWaterfall (adType : AdType) (adUnitIdList : Text) (currentIndex : Nat)
    (manager : AdManager) : AdManager :=
  if getAdmobIdList adUnitIdList = [] ∨ (getAdmobIdList adUnitIdList).length ≤ currentIndex then
    manager.setLoadState adType false
  else manager.request adType adUnitIdList currentIndex

def loadNativeAd := loadWaterfall

def loadInterstitialAd := loadWaterfall

def load (adType : AdType) (adUnitIdList : Text) (currentIndex : Nat) (manager : AdManager) :
    AdManager :=
  match adType.format with
  | .appOpen => manager.loadAppOpenAd adType adUnitIdList currentIndex
  | .native => manager.loadNativeAd adType adUnitIdList currentIndex
  | .interstitial => manager.loadInterstitialAd adType adUnitIdList currentIndex

def startLoad (settings : Settings) (adType : AdType) (manager : AdManager) : AdManager :=
  ((manager.setLoadState adType true).setLoadIp adType manager.host).load adType
    (manager.getAdUnitId settings adType) 0

def loadAdWith (again : AdManager → AdManager) (settings : Settings) (adType : AdType)
    (manager : AdManager) : AdManager :=
  if settings.caoShow then manager
  else if manager.nowLoadState adType then manager
  else if settings.blackData && !adType.spared then manager
  else if settings.adminPing && adType.getAdMinType then manager
  else if manager.ipChanged adType then again ((manager.clearAd adType).clearLoadIp adType)
  else if (manager.ads adType).isSome && manager.isCacheExpired settings adType then
    again (manager.clearAd adType)
  else if (manager.ads adType).isSome then manager
  else manager.startLoad settings adType

def loadAdUpTo (settings : Settings) (adType : AdType) : Nat → AdManager → AdManager
  | 0, manager => manager
  | depth + 1, manager => loadAdWith (loadAdUpTo settings adType depth) settings adType manager

/-- `loadAd` calls itself once at most, since the call finds neither an advertisement nor
the host of an earlier load. -/
def loadAd (settings : Settings) (adType : AdType) (manager : AdManager) : AdManager :=
  manager.loadAdUpTo settings adType 2

/-! ## The callbacks and the display -/

def onAdLoaded (position : Nat) (elapsedRealtime : Int) (manager : AdManager) : AdManager :=
  match manager.requests[position]? with
  | none => manager
  | some request =>
      { manager with
        requests := manager.requests.eraseIdx position
        ads := Function.update manager.ads request.adType (some ⟨request.requestedOn⟩)
        lastLoadTime :=
          Function.update manager.lastLoadTime request.adType (some elapsedRealtime) }.setLoadState
        request.adType false

def onAdFailedToLoad (position : Nat) (manager : AdManager) : AdManager :=
  match manager.requests[position]? with
  | none => manager
  | some request =>
      ({ manager with requests := manager.requests.eraseIdx position }.setLoadState
        request.adType false).load request.adType request.adUnitIdList (request.currentIndex + 1)

/-- `showAd`. The display of a native advertisement is only launched here. The callbacks
that clear the variable of another one are events of their own. -/
def showAd (settings : Settings) (foreground : Bool) (adType : AdType) (manager : AdManager) :
    AdManager :=
  if manager.ipChanged adType then
    ((manager.clearAd adType).clearLoadIp adType).loadAd settings adType
  else if !foreground then manager
  else match adType.format with
    | .native => { manager with displays := manager.displays ++ [adType] }
    | .appOpen | .interstitial => manager

/-- The coroutine of `setDisplayHomeNativeAdFlash` and `setDisplayEndNativeAdFlash`. It
reads the variable of the type only when it runs. -/
def display (adType : AdType) (resumed finishing : Bool) (manager : AdManager) : AdManager :=
  if adType ∈ manager.displays then
    if resumed && !finishing then
      { manager with displays := manager.displays.erase adType }.clearAd adType
    else { manager with displays := manager.displays.erase adType }
  else manager

inductive Event where
  | loadAd (settings : Settings) (adType : AdType)
  | onAdLoaded (position : Nat) (elapsedRealtime : Int)
  | onAdFailedToLoad (position : Nat)
  | showAd (settings : Settings) (foreground : Bool) (adType : AdType)
  | display (adType : AdType) (resumed finishing : Bool)
  /-- `onAdShowedFullScreenContent` of an interstitial or `onAdDismissedFullScreenContent`
  of an advertisement at the start of the application. -/
  | clearAd (adType : AdType)
  | setNowVpn (host : String)
  | setVvState (vvState : Bool)

def step (manager : AdManager) : Event → AdManager
  | .loadAd settings adType => manager.loadAd settings adType
  | .onAdLoaded position elapsedRealtime => manager.onAdLoaded position elapsedRealtime
  | .onAdFailedToLoad position => manager.onAdFailedToLoad position
  | .showAd settings foreground adType => manager.showAd settings foreground adType
  | .display adType resumed finishing => manager.display adType resumed finishing
  | .clearAd adType => manager.clearAd adType
  | .setNowVpn host => { manager with host := host }
  | .setVvState vvState => { manager with vvState := vvState }

def initial (vvState : Bool) (host : String) : AdManager := { vvState := vvState, host := host }

/-! ## What a load does -/

theorem length_getAdmobIdList_pos (adList : Text) : 0 < (getAdmobIdList adList).length :=
  List.length_pos_of_ne_nil (getAdmobIdList_ne_nil adList)

theorem loadWaterfall_eq (adType : AdType) (adUnitIdList : Text) (currentIndex : Nat)
    (manager : AdManager) :
    manager.loadWaterfall adType adUnitIdList currentIndex =
      manager.loadAppOpenAdAgain adType adUnitIdList currentIndex := by
  simp only [loadWaterfall, loadAppOpenAdAgain, getAdmobIdList_ne_nil, false_or]

theorem loadAppOpenAdAgain_zero (adType : AdType) (adUnitIdList : Text) (manager : AdManager) :
    manager.loadAppOpenAdAgain adType adUnitIdList 0 = manager.request adType adUnitIdList 0 := by
  have filled := length_getAdmobIdList_pos adUnitIdList
  rw [loadAppOpenAdAgain, if_neg (by omega)]

theorem loadAppOpenAd_zero (adType : AdType) (adUnitIdList : Text) (manager : AdManager) :
    manager.loadAppOpenAd adType adUnitIdList 0 = manager.request adType adUnitIdList 0 := by
  have filled := length_getAdmobIdList_pos adUnitIdList
  rw [loadAppOpenAd, if_neg (by omega), loadAppOpenAdAgain_zero]

/-- A list is never empty, so every load starts with a request. -/
theorem load_zero (adType : AdType) (adUnitIdList : Text) (manager : AdManager) :
    manager.load adType adUnitIdList 0 = manager.request adType adUnitIdList 0 := by
  cases format : adType.format with
  | appOpen =>
      simp only [load, format]
      exact loadAppOpenAd_zero adType adUnitIdList manager
  | native =>
      simp only [load, format, loadNativeAd, loadWaterfall_eq]
      exact loadAppOpenAdAgain_zero adType adUnitIdList manager
  | interstitial =>
      simp only [load, format, loadInterstitialAd, loadWaterfall_eq]
      exact loadAppOpenAdAgain_zero adType adUnitIdList manager

def Exhausted (adType : AdType) (adUnitIdList : Text) (currentIndex : Nat)
    (manager : AdManager) : Prop :=
  (getAdmobIdList adUnitIdList).length ≤ currentIndex ∧
    (adType.format = .appOpen → manager.isFirstLoad = true)

instance (adType : AdType) (adUnitIdList : Text) (currentIndex : Nat) (manager : AdManager) :
    Decidable (manager.Exhausted adType adUnitIdList currentIndex) :=
  inferInstanceAs (Decidable (_ ∧ _))

theorem loadAppOpenAdAgain_cases (adType : AdType) (adUnitIdList : Text) (currentIndex : Nat)
    (manager : AdManager) :
    (getAdmobIdList adUnitIdList).length ≤ currentIndex ∧
        manager.loadAppOpenAdAgain adType adUnitIdList currentIndex =
          manager.setLoadState adType false ∨
      ¬ (getAdmobIdList adUnitIdList).length ≤ currentIndex ∧
        manager.loadAppOpenAdAgain adType adUnitIdList currentIndex =
          manager.request adType adUnitIdList currentIndex := by
  rw [loadAppOpenAdAgain]
  split
  next spent => exact Or.inl ⟨spent, rfl⟩
  next left => exact Or.inr ⟨left, rfl⟩

/-- A loader ends the load or makes exactly one request. -/
theorem load_cases (adType : AdType) (adUnitIdList : Text) (currentIndex : Nat)
    (manager : AdManager) :
    manager.Exhausted adType adUnitIdList currentIndex ∧
        manager.load adType adUnitIdList currentIndex = manager.setLoadState adType false ∨
      ¬ manager.Exhausted adType adUnitIdList currentIndex ∧ ∃ retried index,
        manager.load adType adUnitIdList currentIndex =
          { manager with isFirstLoad := retried }.request adType adUnitIdList index := by
  have again := loadAppOpenAdAgain_cases adType adUnitIdList currentIndex manager
  by_cases appOpen : adType.format = .appOpen
  · simp only [load, appOpen, Exhausted, forall_const]
    cases first : manager.isFirstLoad with
    | false =>
        refine Or.inr ⟨fun exhausted => (nomatch exhausted.2), ?_⟩
        rw [loadAppOpenAd]
        split
        next => exact ⟨true, 0, loadAppOpenAdAgain_zero adType adUnitIdList _⟩
        next more =>
          refine ⟨manager.isFirstLoad, currentIndex, ?_⟩
          rcases again with ⟨spent, _⟩ | ⟨_, same⟩
          · exact absurd ⟨spent, first⟩ more
          · exact same
    | true =>
        rw [loadAppOpenAd, if_neg (by simp [first])]
        rcases again with ⟨spent, same⟩ | ⟨left, same⟩
        · exact Or.inl ⟨⟨spent, rfl⟩, same⟩
        · exact Or.inr ⟨fun exhausted => left exhausted.1, manager.isFirstLoad, currentIndex, same⟩
  · have same : manager.load adType adUnitIdList currentIndex =
        manager.loadAppOpenAdAgain adType adUnitIdList currentIndex := by
      cases format : adType.format with
      | appOpen => exact absurd format appOpen
      | native => simp only [load, format, loadNativeAd, loadWaterfall_eq]
      | interstitial => simp only [load, format, loadInterstitialAd, loadWaterfall_eq]
    rw [same]
    rcases again with ⟨spent, ended⟩ | ⟨left, requested⟩
    · exact Or.inl ⟨⟨spent, fun format => absurd format appOpen⟩, ended⟩
    · exact Or.inr ⟨fun exhausted => left exhausted.1, manager.isFirstLoad, currentIndex, requested⟩

theorem startLoad_eq (settings : Settings) (adType : AdType) (manager : AdManager) :
    manager.startLoad settings adType =
      ((manager.setLoadState adType true).setLoadIp adType manager.host).request adType
        (manager.getAdUnitId settings adType) 0 :=
  load_zero _ _ _

theorem tracked_of_ipChanged {adType : AdType} {manager : AdManager}
    (changed : manager.ipChanged adType = true) : adType.tracked = true := by
  cases tracked : adType.tracked with
  | true => rfl
  | false => simp [ipChanged, getLoadIp, tracked] at changed

theorem ipChanged_clearLoadIp (adType : AdType) (manager : AdManager) :
    (manager.clearLoadIp adType).ipChanged adType = false := by
  cases tracked : adType.tracked <;> simp [ipChanged, getLoadIp, clearLoadIp, setLoadIp, tracked]

theorem clearAd_ads (adType : AdType) (manager : AdManager) :
    (manager.clearAd adType).ads adType = none := by
  simp only [clearAd, Function.update_self]

theorem clearAd_ads_of_ne {adType cleared : AdType} (other : adType ≠ cleared)
    (manager : AdManager) : (manager.clearAd cleared).ads adType = manager.ads adType := by
  simp only [clearAd, Function.update_of_ne other]

theorem clearAd_eq_self {adType : AdType} {manager : AdManager}
    (empty : manager.ads adType = none) : manager.clearAd adType = manager := by
  have same : Function.update manager.ads adType none = manager.ads := by
    rw [← empty, Function.update_eq_self]
  rw [clearAd, same]

/-- One of the first four checks of `loadAd` returns. -/
def refused (settings : Settings) (adType : AdType) (manager : AdManager) : Bool :=
  settings.caoShow || manager.nowLoadState adType || (settings.blackData && !adType.spared) ||
    (settings.adminPing && adType.getAdMinType)

theorem nowLoadState_of_not_refused {settings : Settings} {adType : AdType}
    {manager : AdManager} (passed : manager.refused settings adType = false) :
    manager.nowLoadState adType = false := by
  simp only [refused, Bool.or_eq_false_iff] at passed
  exact passed.1.1.2

theorem loadAdWith_eq (again : AdManager → AdManager) (settings : Settings) (adType : AdType)
    (manager : AdManager) :
    loadAdWith again settings adType manager =
      if manager.refused settings adType then manager
      else if manager.ipChanged adType then again ((manager.clearAd adType).clearLoadIp adType)
      else if (manager.ads adType).isSome && manager.isCacheExpired settings adType then
        again (manager.clearAd adType)
      else if (manager.ads adType).isSome then manager
      else manager.startLoad settings adType := by
  rw [loadAdWith, refused]
  cases settings.caoShow <;> cases manager.nowLoadState adType <;>
    cases settings.blackData && !adType.spared <;>
    cases settings.adminPing && adType.getAdMinType <;> rfl

/-- Without an advertisement and without the host of an earlier load, `loadAd` does not
call itself. -/
theorem loadAdWith_empty (again : AdManager → AdManager) (settings : Settings)
    {adType : AdType} {manager : AdManager} (same : manager.ipChanged adType = false)
    (empty : manager.ads adType = none) :
    loadAdWith again settings adType manager =
      if manager.refused settings adType then manager
      else manager.startLoad settings adType := by
  simp only [loadAdWith_eq, same, empty, Option.isSome_none, Bool.false_and,
    Bool.false_eq_true, if_false]

theorem loadAdUpTo_empty (depth : Nat) (settings : Settings) {adType : AdType}
    {manager : AdManager} (same : manager.ipChanged adType = false)
    (empty : manager.ads adType = none) :
    manager.loadAdUpTo settings adType (depth + 1) =
      if manager.refused settings adType then manager
      else manager.startLoad settings adType :=
  loadAdWith_empty (loadAdUpTo settings adType depth) settings same empty

/-- The bound on the depth is no restriction: `loadAd` satisfies the equation of the
source, where it calls itself. -/
theorem loadAd_eq (settings : Settings) (adType : AdType) (manager : AdManager) :
    manager.loadAd settings adType =
      loadAdWith (loadAd settings adType) settings adType manager := by
  have deeper : ∀ other : AdManager, other.ipChanged adType = false → other.ads adType = none →
      other.loadAdUpTo settings adType 1 = other.loadAd settings adType := by
    intro other same empty
    rw [loadAd, loadAdUpTo_empty 0 settings same empty, loadAdUpTo_empty 1 settings same empty]
  change loadAdWith (loadAdUpTo settings adType 1) settings adType manager = _
  rw [loadAdWith_eq, loadAdWith_eq]
  cases changed : manager.ipChanged adType with
  | true =>
      have dropped := deeper ((manager.clearAd adType).clearLoadIp adType)
        (ipChanged_clearLoadIp adType _) (clearAd_ads adType manager)
      simp only [dropped, if_true]
  | false =>
      have cleared := deeper (manager.clearAd adType) changed (clearAd_ads adType manager)
      simp only [cleared, Bool.false_eq_true, if_false]

theorem clearLoadIp_startLoad (settings : Settings) {adType : AdType} {manager : AdManager}
    (tracked : adType.tracked = true) :
    (manager.clearLoadIp adType).startLoad settings adType =
      manager.startLoad settings adType := by
  simp only [startLoad_eq, clearLoadIp, setLoadIp, setLoadState, request, getAdUnitId, tracked,
    if_true, Function.update_idem]

/-- `loadAd` does nothing, or makes the first request of a load while none is marked. -/
theorem loadAd_cases (settings : Settings) (adType : AdType) (manager : AdManager) :
    manager.loadAd settings adType = manager ∨
      manager.nowLoadState adType = false ∧
        manager.loadAd settings adType = (manager.clearAd adType).startLoad settings adType := by
  rw [loadAd_eq, loadAdWith_eq]
  cases passed : manager.refused settings adType with
  | true => exact Or.inl (if_pos rfl)
  | false =>
      have idle := nowLoadState_of_not_refused passed
      rw [if_neg Bool.false_ne_true]
      cases changed : manager.ipChanged adType with
      | true =>
          refine Or.inr ⟨idle, ?_⟩
          have reloaded := loadAdUpTo_empty 1 settings
            (ipChanged_clearLoadIp adType (manager.clearAd adType))
            (clearAd_ads adType manager)
          rw [if_pos rfl, loadAd, reloaded, if_neg (by rw [Bool.not_eq_true]; exact passed)]
          exact clearLoadIp_startLoad settings (tracked_of_ipChanged changed)
      | false =>
          rw [if_neg Bool.false_ne_true]
          cases present : manager.ads adType with
          | none => exact Or.inr ⟨idle, by rw [clearAd_eq_self present]; rfl⟩
          | some ad =>
              split
              next =>
                refine Or.inr ⟨idle, ?_⟩
                have same : (manager.clearAd adType).ipChanged adType = false := changed
                have reloaded := loadAdUpTo_empty 1 settings same (clearAd_ads adType manager)
                rw [loadAd, reloaded, if_neg (by rw [Bool.not_eq_true]; exact passed)]
              next => exact Or.inl rfl

/-! ## What an event does -/

/-- The variables of a type that a change may touch: nothing, or its advertisement is gone. -/
def Keeps (manager next : AdManager) (adType : AdType) : Prop :=
  next.ads adType = manager.ads adType ∧ next.typeIp adType = manager.typeIp adType ∨
    next.ads adType = none

/-- What an event can do to the requests and to the variables of the types. -/
inductive Effect (manager : AdManager) : Event → AdManager → Prop
  | quiet {event : Event} {next : AdManager} (requests : next.requests = manager.requests)
      (flags : next.nowLoadState = manager.nowLoadState)
      (keeps : ∀ adType, manager.Keeps next adType) : Effect manager event next
  | started {event : Event} (settings : Settings) (adType : AdType)
      (idle : manager.nowLoadState adType = false) :
      Effect manager event ((manager.clearAd adType).startLoad settings adType)
  | loaded {position : Nat} (elapsedRealtime : Int) {request : Request}
      (found : manager.requests[position]? = some request) :
      Effect manager (.onAdLoaded position elapsedRealtime)
        (manager.onAdLoaded position elapsedRealtime)
  | failed {position : Nat} {request : Request}
      (found : manager.requests[position]? = some request) :
      Effect manager (.onAdFailedToLoad position) (manager.onAdFailedToLoad position)

theorem keeps_of_eq {manager next : AdManager} (ads : next.ads = manager.ads)
    (typeIp : next.typeIp = manager.typeIp) (adType : AdType) : manager.Keeps next adType :=
  Or.inl ⟨congrFun ads adType, congrFun typeIp adType⟩

theorem effect_self (manager : AdManager) (event : Event) : Effect manager event manager :=
  .quiet rfl rfl (keeps_of_eq rfl rfl)

theorem keeps_clearAd (manager : AdManager) (cleared adType : AdType) :
    manager.Keeps (manager.clearAd cleared) adType := by
  by_cases same : adType = cleared
  · subst same
    exact Or.inr (clearAd_ads adType manager)
  · exact Or.inl ⟨clearAd_ads_of_ne same manager, rfl⟩

theorem keeps_dropped (manager : AdManager) (dropped adType : AdType) :
    manager.Keeps ((manager.clearAd dropped).clearLoadIp dropped) adType := by
  by_cases same : adType = dropped
  · subst same
    exact Or.inr (clearAd_ads adType manager)
  · refine Or.inl ⟨clearAd_ads_of_ne same manager, ?_⟩
    cases tracked : dropped.tracked <;>
      simp [clearLoadIp, setLoadIp, clearAd, tracked, Function.update_of_ne same]

theorem keeps_startLoad (manager : AdManager) (settings : Settings) (started adType : AdType) :
    manager.Keeps ((manager.clearAd started).startLoad settings started) adType := by
  rw [startLoad_eq]
  by_cases same : adType = started
  · subst same
    exact Or.inr (clearAd_ads adType manager)
  · refine Or.inl ⟨clearAd_ads_of_ne same manager, ?_⟩
    cases tracked : started.tracked <;>
      simp [request, setLoadIp, setLoadState, clearAd, tracked, Function.update_of_ne same]

theorem keeps_onAdFailedToLoad (manager : AdManager) (position : Nat) (adType : AdType) :
    manager.Keeps (manager.onAdFailedToLoad position) adType := by
  cases found : manager.requests[position]? with
  | none =>
      simp only [onAdFailedToLoad, found]
      exact keeps_of_eq rfl rfl adType
  | some request =>
      simp only [onAdFailedToLoad, found]
      rcases load_cases request.adType request.adUnitIdList (request.currentIndex + 1)
          ({ manager with requests := manager.requests.eraseIdx position }.setLoadState
            request.adType false) with ⟨_, same⟩ | ⟨_, retried, index, same⟩
      · rw [same]
        exact keeps_of_eq rfl rfl adType
      · rw [same]
        exact keeps_of_eq rfl rfl adType

theorem effect_showAd (settings : Settings) (foreground : Bool) (adType : AdType)
    (manager : AdManager) (event : Event) :
    Effect manager event (manager.showAd settings foreground adType) := by
  rw [showAd]
  split
  next changed =>
    rcases loadAd_cases settings adType ((manager.clearAd adType).clearLoadIp adType) with
      same | ⟨idle, reloaded⟩
    · rw [same]
      exact .quiet rfl rfl (keeps_dropped manager adType)
    · have started : ((manager.clearAd adType).clearLoadIp adType).clearAd adType =
          (manager.clearAd adType).clearLoadIp adType :=
        clearAd_eq_self (clearAd_ads adType manager)
      rw [reloaded, started, clearLoadIp_startLoad settings (tracked_of_ipChanged changed)]
      exact .started settings adType idle
  next =>
    split
    next => exact effect_self manager event
    next => split <;> exact .quiet rfl rfl (keeps_of_eq rfl rfl)

theorem effect_step (manager : AdManager) (event : Event) :
    Effect manager event (manager.step event) := by
  cases event with
  | loadAd settings adType =>
      rcases loadAd_cases settings adType manager with same | ⟨idle, started⟩
      · rw [step, same]
        exact effect_self manager _
      · rw [step, started]
        exact .started settings adType idle
  | onAdLoaded position elapsedRealtime =>
      cases found : manager.requests[position]? with
      | none =>
          simp only [step, onAdLoaded, found]
          exact effect_self manager _
      | some request => exact .loaded elapsedRealtime found
  | onAdFailedToLoad position =>
      cases found : manager.requests[position]? with
      | none =>
          simp only [step, onAdFailedToLoad, found]
          exact effect_self manager _
      | some request => exact .failed found
  | showAd settings foreground adType =>
      exact effect_showAd settings foreground adType manager _
  | display adType resumed finishing =>
      rw [step, display]
      split
      next =>
        split
        next => exact .quiet rfl rfl (keeps_clearAd manager adType)
        next => exact .quiet rfl rfl (keeps_of_eq rfl rfl)
      next => exact effect_self manager _
  | clearAd adType => exact .quiet rfl rfl (keeps_clearAd manager adType)
  | setNowVpn host => exact .quiet rfl rfl (keeps_of_eq rfl rfl)
  | setVvState vvState => exact .quiet rfl rfl (keeps_of_eq rfl rfl)

end AdManager

end AlienConnection.Ads
