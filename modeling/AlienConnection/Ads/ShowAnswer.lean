import AlienConnection.Ads.AdManager
import Mathlib.Data.List.Perm.Basic

/-!
# Answers to `showAd`

A caller of `showAd` waits for its `onAdClosed`. The call runs it at once, leaves it to the
callback of an advertisement that covers the screen, or to the coroutine that displays a
native one. The calls are numbered, and the ledger of a run holds those that have been
answered and those whose answer is still to come.
-/

namespace AlienConnection.Ads

open Library

structure Shows where
  manager : AdManager
  /-- How often `showAd` has been called. -/
  calls : Nat := 0
  /-- The coroutines of native displays, each with its call. -/
  launched : List (AdType × Nat) := []
  /-- The advertisements that cover the screen, each with the call that its callback answers. -/
  onScreen : List (AdType × Nat) := []
  /-- The types whose cached advertisement has been handed over already. -/
  handed : AdType → Bool := fun _ => false
  /-- The calls whose `onAdClosed` has run. -/
  closed : List Nat := []

inductive ShowEvent where
  | showAd (settings : Settings) (foreground : Bool) (adType : AdType)
  /-- The coroutine of a native display runs. -/
  | display (adType : AdType) (resumed finishing : Bool)
  /-- The coroutine of a native display is cancelled with its activity. -/
  | cancelled (adType : AdType)
  | onAdShowedFullScreenContent (position : Nat)
  | onAdDismissedFullScreenContent (position : Nat)
  | loadAd (settings : Settings) (adType : AdType)
  | onAdLoaded (position : Nat) (elapsedRealtime : Int)
  | onAdFailedToLoad (position : Nat)
  | setNowVpn (host : String)
  | setVvState (vvState : Bool)

namespace Shows

/-- Coroutines of one type run in the order in which they were launched. -/
def takeLaunched (adType : AdType) : List (AdType × Nat) → Option (Nat × List (AdType × Nat))
  | [] => none
  | (first, call) :: rest =>
      if first = adType then some (call, rest)
      else (takeLaunched adType rest).map (fun taken => (taken.1, (first, call) :: taken.2))

/-- What an event is for the manager. The callback of an interstitial clears its variable when
it is shown, that of an advertisement at the start of the application when it is dismissed. -/
def managerEvent (shows : Shows) : ShowEvent → Option AdManager.Event
  | .showAd settings foreground adType => some (.showAd settings foreground adType)
  | .display adType resumed finishing => some (.display adType resumed finishing)
  | .cancelled adType => some (.display adType false true)
  | .onAdShowedFullScreenContent position =>
      (shows.onScreen[position]?).bind (fun shown =>
        if shown.1.format = .interstitial then some (.clearAd shown.1) else none)
  | .onAdDismissedFullScreenContent position =>
      (shows.onScreen[position]?).bind (fun shown =>
        if shown.1.format = .appOpen then some (.clearAd shown.1) else none)
  | .loadAd settings adType => some (.loadAd settings adType)
  | .onAdLoaded position elapsedRealtime => some (.onAdLoaded position elapsedRealtime)
  | .onAdFailedToLoad position => some (.onAdFailedToLoad position)
  | .setNowVpn host => some (.setNowVpn host)
  | .setVvState vvState => some (.setVvState vvState)

def overwrite (adType : AdType) (call : Nat) : List (AdType × Nat) → List (AdType × Nat)
  | [] => []
  | (first, old) :: rest =>
      if first = adType ∧ adType ∉ rest.map Prod.fst then (first, call) :: rest
      else (first, old) :: overwrite adType call rest

/-- An advertisement that is to cover the screen is handed over, if there is one. If it has
been handed over already, its `fullScreenContentCallback` is overwritten. -/
def cover (adType : AdType) (shows : Shows) : Shows :=
  match shows.manager.ads adType with
  | none => { shows with calls := shows.calls + 1 }
  | some _ =>
      if shows.handed adType then
        { shows with
          calls := shows.calls + 1, onScreen := overwrite adType shows.calls shows.onScreen }
      else
        { shows with
          calls := shows.calls + 1
          onScreen := shows.onScreen ++ [(adType, shows.calls)]
          handed := Function.update shows.handed adType true }

def showAd (foreground : Bool) (adType : AdType) (shows : Shows) : Shows :=
  if shows.manager.ipChanged adType then { shows with calls := shows.calls + 1 }
  else if !foreground then
    { shows with calls := shows.calls + 1, closed := shows.closed ++ [shows.calls] }
  else match adType.format with
    | .native =>
        { shows with
          calls := shows.calls + 1, launched := shows.launched ++ [(adType, shows.calls)] }
    | .appOpen | .interstitial => shows.cover adType

/-- The coroutine of a native display. Without an advertisement its cast throws. -/
def display (adType : AdType) (resumed finishing : Bool) (shows : Shows) : Shows :=
  match takeLaunched adType shows.launched with
  | none => shows
  | some (call, rest) =>
      if (shows.manager.ads adType).isSome && resumed && !finishing then
        { shows with launched := rest, closed := shows.closed ++ [call] }
      else { shows with launched := rest }

def cancelled (adType : AdType) (shows : Shows) : Shows :=
  match takeLaunched adType shows.launched with
  | none => shows
  | some (_, rest) => { shows with launched := rest }

def dismissed (position : Nat) (shows : Shows) : Shows :=
  match shows.onScreen[position]? with
  | none => shows
  | some (_, call) =>
      { shows with
        onScreen := shows.onScreen.eraseIdx position, closed := shows.closed ++ [call] }

def answer (shows : Shows) : ShowEvent → Shows
  | .showAd _ foreground adType => shows.showAd foreground adType
  | .display adType resumed finishing => shows.display adType resumed finishing
  | .cancelled adType => shows.cancelled adType
  | .onAdDismissedFullScreenContent position => shows.dismissed position
  | _ => shows

def replaces (shows : Shows) (adType : AdType) : ShowEvent → Bool
  | .onAdLoaded position _ => (shows.manager.requests[position]?).any (·.adType = adType)
  | _ => false

def step (shows : Shows) (event : ShowEvent) : Shows :=
  let manager := ((shows.managerEvent event).map shows.manager.step).getD shows.manager
  { shows.answer event with
    manager := manager
    handed := fun adType => (shows.answer event).handed adType &&
      (manager.ads adType).isSome && !shows.replaces adType event }

/-- The calls that have been answered, and those that still will be. -/
def ledger (shows : Shows) : List Nat :=
  shows.closed ++ (shows.launched.map Prod.snd ++ shows.onScreen.map Prod.snd)

/-- Every call has been answered once, or its answer is still to come. -/
def Answered (shows : Shows) : Prop := shows.ledger.Perm (List.range shows.calls)

/-- What a run has to ensure: `showAd` is called on the server of the load, in the foreground
with an advertisement that it can show and has not handed over before, and a native display
finds its advertisement and an activity that is resumed. -/
def Answers (shows : Shows) : ShowEvent → Prop
  | .showAd _ foreground adType =>
      shows.manager.ipChanged adType = false ∧
        (foreground = true → adType.format = .native ∨
          ((shows.manager.ads adType).isSome = true ∧ shows.handed adType = false))
  | .display adType resumed finishing =>
      adType ∈ shows.launched.map Prod.fst →
        (shows.manager.ads adType).isSome = true ∧ resumed = true ∧ finishing = false
  | .cancelled adType => adType ∉ shows.launched.map Prod.fst
  | _ => True

/-! ## Coroutines -/

theorem takeLaunched_eq_none_iff {adType : AdType} {launched : List (AdType × Nat)} :
    takeLaunched adType launched = none ↔ adType ∉ launched.map Prod.fst := by
  induction launched with
  | nil => simp [takeLaunched]
  | cons entry rest ih =>
      obtain ⟨first, call⟩ := entry
      by_cases same : first = adType
      · simp [takeLaunched, same]
      · have other : ¬ adType = first := fun equal => same equal.symm
        simp only [takeLaunched, same, if_false, Option.map_eq_none_iff, ih, List.map_cons,
          List.mem_cons, other, false_or]

theorem takeLaunched_perm {adType : AdType} {launched rest : List (AdType × Nat)} {call : Nat}
    (taken : takeLaunched adType launched = some (call, rest)) :
    (launched.map Prod.snd).Perm (call :: rest.map Prod.snd) := by
  induction launched generalizing rest with
  | nil => cases taken
  | cons entry others ih =>
      obtain ⟨first, number⟩ := entry
      rw [takeLaunched] at taken
      split at taken
      · cases taken
        exact List.Perm.refl _
      · obtain ⟨⟨found, left⟩, inner, made⟩ := Option.map_eq_some_iff.mp taken
        cases made
        exact ((ih inner).cons number).trans (List.Perm.swap _ _ _)

theorem length_overwrite (adType : AdType) (call : Nat) (shown : List (AdType × Nat)) :
    (overwrite adType call shown).length = shown.length := by
  induction shown with
  | nil => rfl
  | cons entry rest ih =>
      obtain ⟨first, old⟩ := entry
      rw [overwrite]
      split
      · rfl
      · rw [List.length_cons, ih, List.length_cons]

/-! ## One event -/

/-- What an event can do to the ledger, and whether every answer is given. Calls move within
it, or one more call enters it; or a call is made and the ledger does not grow, or a call is
lost that was in it. -/
inductive Entry (shows next : Shows) : Bool → Prop
  | kept (calls : next.calls = shows.calls) (same : next.ledger.Perm shows.ledger) :
      Entry shows next true
  | entered (calls : next.calls = shows.calls + 1)
      (more : next.ledger.Perm (shows.calls :: shows.ledger)) : Entry shows next true
  | missed (calls : next.calls = shows.calls + 1)
      (same : next.ledger.length = shows.ledger.length) : Entry shows next false
  | lost (calls : next.calls = shows.calls) (call : Nat)
      (less : shows.ledger.Perm (call :: next.ledger)) : Entry shows next false

/-- A ledger of all calls stays one exactly if no call is missed or lost. -/
theorem Entry.answered_iff {shows next : Shows} {complete : Bool}
    (entry : Entry shows next complete) (answered : shows.Answered) :
    next.Answered ↔ complete = true := by
  have size : shows.ledger.length = shows.calls := by
    rw [answered.length_eq, List.length_range]
  cases entry with
  | kept calls same =>
      rw [Answered, calls]
      exact ⟨fun _ => rfl, fun _ => same.trans answered⟩
  | entered calls more =>
      rw [Answered, calls, List.range_succ]
      refine ⟨fun _ => rfl, fun _ => more.trans ?_⟩
      exact (answered.cons shows.calls).trans (List.perm_append_singleton _ _).symm
  | missed calls same =>
      refine ⟨fun later => ?_, fun none => nomatch none⟩
      have length := later.length_eq
      rw [List.length_range, calls, same] at length
      omega
  | lost calls call less =>
      refine ⟨fun later => ?_, fun none => nomatch none⟩
      have length := later.length_eq
      have before := less.length_eq
      rw [List.length_range, calls] at length
      rw [List.length_cons] at before
      omega

/-- A call that is answered enters the ledger. -/
theorem ledger_closed_perm (shows : Shows) (call : Nat) :
    { shows with closed := shows.closed ++ [call] }.ledger.Perm (call :: shows.ledger) := by
  rw [ledger, List.append_assoc]
  exact List.perm_middle

theorem perm_map_concat (adType : AdType) (call : Nat) (shown : List (AdType × Nat)) :
    ((shown ++ [(adType, call)]).map Prod.snd).Perm (call :: shown.map Prod.snd) := by
  rw [List.map_append]
  exact List.perm_append_singleton _ _

theorem entry_cover (adType : AdType) (shows : Shows) :
    Entry shows (shows.cover adType)
      ((shows.manager.ads adType).isSome && !shows.handed adType) := by
  unfold cover
  cases shows.manager.ads adType with
  | none => exact .missed rfl rfl
  | some ad =>
      cases shows.handed adType with
      | true =>
          refine .missed rfl ?_
          simp only [ledger, if_true, List.length_append, List.length_map, length_overwrite]
      | false =>
          refine .entered rfl ?_
          refine (((perm_map_concat _ _ _).append_left _).append_left _).trans ?_
          exact (List.perm_middle.append_left _).trans List.perm_middle

theorem entry_showAd (foreground : Bool) (adType : AdType) (shows : Shows) :
    ∃ complete, Entry shows (shows.showAd foreground adType) complete ∧
      (complete = true ↔ shows.manager.ipChanged adType = false ∧ (foreground = true →
        adType.format = .native ∨
          ((shows.manager.ads adType).isSome = true ∧ shows.handed adType = false))) := by
  unfold showAd
  cases changed : shows.manager.ipChanged adType with
  | true => exact ⟨false, .missed rfl rfl, by simp⟩
  | false =>
      cases foreground with
      | false =>
          exact ⟨true, .entered rfl (ledger_closed_perm shows shows.calls), by simp⟩
      | true =>
          cases format : adType.format with
          | native =>
              refine ⟨true, .entered rfl ?_, by simp⟩
              exact (((perm_map_concat _ _ _).append_right _).append_left _).trans List.perm_middle
          | appOpen => exact ⟨_, entry_cover adType shows, by simp⟩
          | interstitial => exact ⟨_, entry_cover adType shows, by simp⟩

/-- The call of a coroutine that ends leaves the list of those that are to be answered. -/
theorem ledger_launched_perm {adType : AdType} {shows : Shows} {call : Nat}
    {rest : List (AdType × Nat)}
    (taken : takeLaunched adType shows.launched = some (call, rest)) :
    shows.ledger.Perm (call :: { shows with launched := rest }.ledger) :=
  (((takeLaunched_perm taken).append_right _).append_left _).trans List.perm_middle

theorem entry_display (adType : AdType) (resumed finishing : Bool) (shows : Shows) :
    ∃ complete, Entry shows (shows.display adType resumed finishing) complete ∧
      (complete = true ↔ (adType ∈ shows.launched.map Prod.fst →
        (shows.manager.ads adType).isSome = true ∧ resumed = true ∧ finishing = false)) := by
  unfold display
  cases taken : takeLaunched adType shows.launched with
  | none =>
      have absent := takeLaunched_eq_none_iff.mp taken
      exact ⟨true, .kept rfl (List.Perm.refl _), by simp [absent]⟩
  | some found =>
      obtain ⟨call, rest⟩ := found
      have present : adType ∈ shows.launched.map Prod.fst := by
        by_contra absent
        rw [takeLaunched_eq_none_iff.mpr absent] at taken
        cases taken
      have less := ledger_launched_perm taken
      dsimp only
      split
      next runs =>
        refine ⟨true, .kept rfl ?_, by simpa [present, and_assoc] using runs⟩
        exact (ledger_closed_perm { shows with launched := rest } call).trans less.symm
      next fails => exact ⟨false, .lost rfl call less, by simpa [present, and_assoc] using fails⟩

theorem entry_cancelled (adType : AdType) (shows : Shows) :
    ∃ complete, Entry shows (shows.cancelled adType) complete ∧
      (complete = true ↔ adType ∉ shows.launched.map Prod.fst) := by
  unfold cancelled
  rw [← takeLaunched_eq_none_iff]
  cases taken : takeLaunched adType shows.launched with
  | none => exact ⟨true, .kept rfl (List.Perm.refl _), by simp⟩
  | some found =>
      obtain ⟨call, rest⟩ := found
      exact ⟨false, .lost rfl call (ledger_launched_perm taken), by simp⟩

theorem entry_dismissed (position : Nat) (shows : Shows) :
    Entry shows (shows.dismissed position) true := by
  unfold dismissed
  split
  next => exact .kept rfl (List.Perm.refl _)
  next adType call found =>
    have inside : position < shows.onScreen.length := (List.getElem?_eq_some_iff.mp found).1
    have same : shows.onScreen[position] = (adType, call) :=
      (List.getElem?_eq_some_iff.mp found).2
    have taken : (shows.onScreen.map Prod.snd).Perm
        (call :: (shows.onScreen.eraseIdx position).map Prod.snd) := by
      have whole := (List.getElem_cons_eraseIdx_perm inside).symm.map Prod.snd
      rwa [same] at whole
    have less : shows.ledger.Perm
        (call :: { shows with onScreen := shows.onScreen.eraseIdx position }.ledger) :=
      (((taken.append_left _).trans List.perm_middle).append_left _).trans List.perm_middle
    exact .kept rfl ((ledger_closed_perm _ call).trans less.symm)

theorem entry_step (shows : Shows) (event : ShowEvent) :
    ∃ complete, Entry shows (shows.step event) complete ∧
      (complete = true ↔ shows.Answers event) := by
  -- the ledger depends neither on the manager nor on what has been handed over
  have moved : ∀ {next : Shows} {complete : Bool} (manager : AdManager) (handed : AdType → Bool),
      Entry shows next complete →
        Entry shows { next with manager := manager, handed := handed } complete := by
    intro next complete manager handed entry
    cases entry with
    | kept calls same => exact .kept calls same
    | entered calls more => exact .entered calls more
    | missed calls same => exact .missed calls same
    | lost calls call less => exact .lost calls call less
  have still : Entry shows shows true := .kept rfl (List.Perm.refl _)
  cases event with
  | showAd settings foreground adType =>
      obtain ⟨complete, entry, iff⟩ := entry_showAd foreground adType shows
      exact ⟨complete, moved _ _ entry, iff⟩
  | display adType resumed finishing =>
      obtain ⟨complete, entry, iff⟩ := entry_display adType resumed finishing shows
      exact ⟨complete, moved _ _ entry, iff⟩
  | cancelled adType =>
      obtain ⟨complete, entry, iff⟩ := entry_cancelled adType shows
      exact ⟨complete, moved _ _ entry, iff⟩
  | onAdDismissedFullScreenContent position =>
      exact ⟨true, moved _ _ (entry_dismissed position shows), by simp [Answers]⟩
  | _ => exact ⟨true, moved _ _ still, by simp [Answers]⟩

/-! ## Whole runs -/

def start (manager : AdManager) : Shows := { manager := manager }

/-- Every call of `showAd` is answered exactly if the run ensures it at every event. -/
theorem answered_iff_answers (manager : AdManager) (events : List ShowEvent) :
    (∀ first second, events = first ++ second →
        (Machine.run Shows.step (start manager) first).Answered) ↔
      Machine.Along Shows.step Answers (start manager) events := by
  have step_iff : ∀ (shows : Shows) (event : ShowEvent), shows.Answered →
      ((shows.step event).Answered ↔ shows.Answers event) := by
    intro shows event answered
    obtain ⟨complete, entry, iff⟩ := entry_step shows event
    rw [entry.answered_iff answered, iff]
  have none : (start manager).Answered := List.Perm.refl _
  exact Machine.throughout_iff_along step_iff none events

/-- The server changes between the load of an advertisement and its show. `showAd` drops the
advertisement and loads another one, and nobody calls `onAdClosed`. -/
theorem not_answered_changedServer :
    let settings := Settings.unlimited ['a']
    let events : List ShowEvent :=
      [.loadAd settings .interstitialConnect, .onAdLoaded 0 0, .setNowVpn "b",
        .showAd settings true .interstitialConnect]
    let last := Machine.run Shows.step (start (AdManager.initial true "a")) events
    last.calls = 1 ∧ last.ledger = [] ∧ ¬ last.Answered := by
  intro settings events last
  have calls : last.calls = 1 := rfl
  have empty : last.ledger = [] := rfl
  refine ⟨calls, empty, ?_⟩
  intro answered
  rw [Answered, calls, empty] at answered
  cases answered.length_eq

end Shows

end AlienConnection.Ads
