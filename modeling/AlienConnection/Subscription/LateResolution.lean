import AlienConnection.Subscription.Merge
import Mathlib.Data.List.Find

/-!
# Fallbacks resolved late

A synchronisation looks for the row that a `udp_fallback` object stands for when it
reads the document, in a table that it is still changing. Here the same documents are
read over rows that stay as they are. The two readings agree for as long as the rows
already look like what they are offered.
-/

namespace AlienConnection.Subscription

open Database Library

namespace Log

/-- Rows that stay: an offer is answered with the row of its key, and every fallback
is looked for among the same rows. -/
def lateSink (rows : List Profile) : ProfileSink Log where
  create := fun log it =>
    (((rows.find? (fun row => managed row && decide (row.subscriptionKey =
        it.subscriptionKey))).map Profile.id).getD 0,
      { log with offered := log.offered ++ [it] })
  getAllProfiles := fun _ => rows
  setFallback := fun log id target =>
    ({ log with links := LinkedMap.put id target log.links }, true)

def absorbLate (rows : List Profile) (runtime : Runtime) (feature : Option Profile) (log : Log) :
    Option Json → Log
  | none => log
  | some json => (JsonParser.parseJson (lateSink rows) runtime feature json log).1

def runLate (rows : List Profile) (runtime : Runtime) (feature : Option Profile)
    (jsons : List (Option Json)) : Log :=
  jsons.foldl (absorbLate rows runtime feature) {}

end Log

def remainingRows (runtime : Runtime) (table : ProfileTable) (currentId : Int)
    (jsons : List (Option Json)) : List Profile :=
  (syncLog runtime table currentId jsons).finalRows (baseOf table)

/-- The documents of a synchronisation, read over the rows that it leaves. -/
def lateLog (runtime : Runtime) (table : ProfileTable) (currentId : Int)
    (jsons : List (Option Json)) : Log :=
  let rows := remainingRows runtime table currentId jsons
  let current := rows.find? (fun row => decide (row.id = remainingId table currentId))
  Log.runLate rows runtime current jsons

/-- It does not matter whether the fallbacks of the documents are looked for when
their document is read or at the end: under every key the same server is offered
first, and every profile gets the same link. -/
structure StableFallbacks (runtime : Runtime) (table : ProfileTable) (currentId : Int)
    (jsons : List (Option Json)) : Prop where
  offers : ∀ key, ((syncLog runtime table currentId jsons).first key).map offerOf =
    ((lateLog runtime table currentId jsons).first key).map offerOf
  links : ∀ id, LinkedMap.get id (syncLog runtime table currentId jsons).links =
    LinkedMap.get id (lateLog runtime table currentId jsons).links

/-! ## Rows that look like their offers -/

/-- Every offer has a row, and the rows look like their first offers. -/
structure Fits (base : ProfileTable) (offered : List Profile) : Prop where
  held : ∀ it ∈ offered, (holder base it.subscriptionKey).isSome = true
  alike : ∀ row ∈ base.rows, managed row = true →
    ∀ it, offered.find? (fun it => decide (it.subscriptionKey = row.subscriptionKey)) = some it →
      row.password = it.password ∧ row.method = it.method ∧ row.plugin = it.plugin

theorem Fits.nil (base : ProfileTable) : Fits base [] where
  held := fun _ none => nomatch none
  alike := fun _ _ _ _ none => nomatch none

theorem Fits.of_prefix {base : ProfileTable} {offered early : List Profile}
    (fits : Fits base offered) (before : early <+: offered) : Fits base early where
  held := fun it member => fits.held it (before.subset member)
  alike := fun row member isManaged it found =>
    fits.alike row member isManaged it (before.find?_eq_some found)

namespace Log

variable {base : ProfileTable} {log : Log}

/-- A version that looks like the row stands for the same fallbacks. -/
theorem fallbackMatches_onDisk (fits : Fits base log.offered) {row : Profile}
    (member : row ∈ base.rows) (fallback : Profile) :
    fallback.fallbackMatches (log.onDisk row) = fallback.fallbackMatches row := by
  unfold onDisk current
  split
  · split
    next isManaged =>
      split
      next it found =>
        obtain ⟨password, method, plugin⟩ := fits.alike row member isManaged it found
        rw [Profile.fallbackMatches, Profile.fallbackMatches, password, method, plugin]
        rfl
      next =>
        unfold retire
        split <;> rfl
    next => rfl
  · rfl

/-- While the rows fit, the listing resolves like the rows themselves. -/
theorem find_storedRows (fits : Fits base log.offered) (nobody : log.created = [])
    (fallback : Profile) :
    ((log.storedRows base).find? fallback.fallbackMatches).map Profile.id =
      (base.rows.find? fallback.fallbackMatches).map Profile.id := by
  have alike : ∀ row ∈ base.rows,
      (fallback.fallbackMatches ∘ log.onDisk) row = fallback.fallbackMatches row :=
    fun row member => fallbackMatches_onDisk fits member fallback
  rw [storedRows, nobody, List.map_nil, List.append_nil, List.find?_map, List.find?_congr alike,
    Option.map_map]
  exact congrArg (fun keep => Option.map keep _)
    (funext fun row => (sameRow_onDisk log row).id)

/-! ## What is offered late -/

theorem keeps_late (rows : List Profile) :
    JsonParser.Keeps (lateSink rows) (fun offered log => log.offered = offered)
      (fun _ _ => True) where
  create := by
    rintro offered log it _ rfl
    exact ⟨rfl, trivial, fun _ _ => trivial⟩
  setFallback := by
    rintro offered log id target rfl _
    exact ⟨rfl, rfl, fun _ _ => trivial⟩

/-- A document offers its profiles, and besides them only fallbacks without a row. -/
theorem offered_absorbLate {rows : List Profile} {runtime : Runtime} {feature : Option Profile}
    {json : Option Json} {it : Profile}
    (offered : it ∈ (log.absorbLate rows runtime feature json).offered) :
    it ∈ log.offered ∨ it ∈ profilesOf runtime feature json ∨
      rows.find? it.fallbackMatches = none := by
  cases json with
  | none => exact Or.inl offered
  | some json =>
      rw [profilesOf]
      rw [absorbLate, JsonParser.parseJson] at offered
      cases processed : JsonParser.process runtime feature {} json with
      | error message =>
          rw [processed] at offered
          exact Or.inl offered
      | ok parser =>
          have wellFormed := JsonParser.wellFormed_document processed
          have keeps := keeps_late rows
          obtain ⟨created, ready⟩ := keeps.createAll parser.profiles wellFormed.profiles rfl
            (wellFormed.ready _) (fun entry member => List.mem_map_of_mem member)
          obtain ⟨_, last⟩ := keeps.finalizeAll_offers rows _ created
            (fun entry member => (ready entry member).1)
          rw [processed] at offered
          have listed := last ▸ offered
          rcases List.mem_append.mp listed with before | fallback
          · exact (List.mem_append.mp before).imp_right Or.inl
          · exact Or.inr (Or.inr (Option.isNone_iff_eq_none.mp (List.mem_filter.mp fallback).2))

theorem offered_foldlLate {rows : List Profile} {runtime : Runtime} {feature : Option Profile}
    {jsons : List (Option Json)} {it : Profile}
    (offered : it ∈ (jsons.foldl (absorbLate rows runtime feature) log).offered) :
    it ∈ log.offered ∨ (∃ json ∈ jsons, it ∈ profilesOf runtime feature json) ∨
      rows.find? it.fallbackMatches = none := by
  induction jsons generalizing log with
  | nil => exact Or.inl offered
  | cons json rest ih =>
      rcases ih offered with before | ⟨later, inside, listed⟩ | missing
      · rcases offered_absorbLate before with earlier | listed | missing
        · exact Or.inl earlier
        · exact Or.inr (Or.inl ⟨json, List.mem_cons_self, listed⟩)
        · exact Or.inr (Or.inr missing)
      · exact Or.inr (Or.inl ⟨later, List.mem_cons_of_mem _ inside, listed⟩)
      · exact Or.inr (Or.inr missing)

/-! ## Both readings -/

structure Together (base : ProfileTable) (log late : Log) : Prop where
  same : late = log
  nobody : log.created = []
  fits : Fits base log.offered

/-- Both readings were offered the same profiles until the rows did not fit. -/
def Parted (base : ProfileTable) (log late : Log) : Prop :=
  ∃ early, ¬ Fits base early ∧ early <+: log.offered ∧ early <+: late.offered

theorem preserves_early (base : ProfileTable) (early : List Profile) :
    JsonParser.Preserves (sink base) (fun log => early <+: log.offered) where
  create := by
    intro log it before
    have grown : (offer base log it).2.offered = log.offered ++ [it] := offered_offer base log it
    exact before.trans (grown ▸ List.prefix_append _ _)
  setFallback := fun _ _ before => before

theorem preserves_early_late (rows early : List Profile) :
    JsonParser.Preserves (lateSink rows) (fun log => early <+: log.offered) where
  create := fun _ before => before.trans (List.prefix_append _ _)
  setFallback := fun _ _ before => before

theorem accompanies (base : ProfileTable) :
    JsonParser.Accompanies (sink base) (lateSink base.rows) (Together base) (Parted base) where
  create := by
    rintro log late it ⟨rfl, nobody, fits⟩
    by_cases still : Fits base (late.offered ++ [it])
    · left
      have held := still.held it (List.mem_append_right _ List.mem_cons_self)
      rcases offer_cases base late it with ⟨row, found, result⟩ | ⟨missing, _⟩ | ⟨missing, _⟩
      · have answered : ((lateSink base.rows).create late it).1 = row.id := by
          rw [holder] at found
          simp only [lateSink, found]
          rfl
        have offered : (sink base).create late it =
            (row.id, { late with offered := late.offered ++ [it] }) := result
        rw [answered, offered]
        exact ⟨rfl, ⟨rfl, nobody, still⟩⟩
      · rw [missing] at held
        cases held
      · rw [missing] at held
        cases held
    · right
      refine ⟨late.offered ++ [it], still, ?_, List.prefix_rfl⟩
      have grown : ((sink base).create late it).2.offered = late.offered ++ [it] :=
        offered_offer base late it
      exact grown ▸ List.prefix_rfl
  resolved := by
    rintro log late fallback ⟨_, nobody, fits⟩
    exact find_storedRows fits nobody fallback
  setFallback := by
    rintro log late id target ⟨rfl, nobody, fits⟩
    exact ⟨rfl, ⟨rfl, nobody, fits⟩⟩
  partedFirst := fun late =>
    { create := fun it ⟨early, misfit, before, lateBefore⟩ =>
        ⟨early, misfit, (preserves_early base early).create it before, lateBefore⟩
      setFallback := fun _ _ parted => parted }
  partedSecond := fun log =>
    { create := fun it ⟨early, misfit, before, lateBefore⟩ =>
        ⟨early, misfit, before, (preserves_early_late base.rows early).create it lateBefore⟩
      setFallback := fun _ _ parted => parted }

theorem together_or_parted (base : ProfileTable) (runtime : Runtime) (feature : Option Profile)
    (jsons : List (Option Json)) {log late : Log}
    (start : Together base log late ∨ Parted base log late) :
    Together base (jsons.foldl (absorb base runtime feature) log)
        (jsons.foldl (absorbLate base.rows runtime feature) late) ∨
      Parted base (jsons.foldl (absorb base runtime feature) log)
        (jsons.foldl (absorbLate base.rows runtime feature) late) := by
  induction jsons generalizing log late with
  | nil => exact start
  | cons json rest ih =>
      cases json with
      | none => exact ih start
      | some json => exact ih ((accompanies base).parseJson runtime feature json start)

/-- **One fitting reading is the other.** -/
theorem run_eq_runLate {runtime : Runtime} {feature : Option Profile}
    {jsons : List (Option Json)}
    (fits : Fits base (run base runtime feature jsons).offered ∨
      Fits base (runLate base.rows runtime feature jsons).offered) :
    run base runtime feature jsons = runLate base.rows runtime feature jsons := by
  have start : Together base {} {} := ⟨rfl, rfl, Fits.nil base⟩
  rcases together_or_parted base runtime feature jsons (Or.inl start) with
    together | ⟨early, misfit, before, lateBefore⟩
  · exact together.same.symm
  · rcases fits with fits | fits
    · exact absurd (fits.of_prefix before) misfit
    · exact absurd (fits.of_prefix lateBefore) misfit

end Log

end AlienConnection.Subscription
