import AlienConnection.Library.Path

/-!
# Unpacking a native plugin

`initNativeSlow` copies the files that a plugin's content provider lists into the plugin
directory and returns the path of the entry binary. The paths come from another
application. The guard compares the text of the absolute path of a file with that of the
directory, and an absolute path keeps its dots.
-/

namespace AlienConnection.Plugin

open Library

namespace PluginManager

structure Storage where
  /-- The absolute path of the plugin directory. -/
  pluginDir : Text
  /-- `File(pluginDir, path).absolutePath`. -/
  absolutePath : Text → Text
  /-- `toInt(8)`, if it does not throw. -/
  parseOctal : Text → Option Int

/-- A child path loses slashes in a row and at its end, and keeps its dots. -/
structure Documented (storage : Storage) : Prop where
  absolutePath : ∀ path,
    storage.absolutePath path = storage.pluginDir ++ Path.join (Path.names path)

inductive Mode where
  | integer (mode : Int)
  | string (text : Text)
  | other
  deriving DecidableEq

inductive Stream where
  | missing
  | failing
  | whole
  deriving DecidableEq

/-- A row of the cursor, with what the system does when it comes to this row. -/
structure Row where
  path : Text
  mode : Mode
  stream : Stream
  /-- Whether the file can be opened for writing. -/
  creates : Bool
  /-- Whether the mode of the file can be changed. -/
  permits : Bool
  deriving DecidableEq

inductive Effect where
  | write (file : Text)
  | chmod (file : Text) (mode : Int)
  deriving DecidableEq

def Effect.file : Effect → Text
  | .write file => file
  | .chmod file _ => file

inductive Failure where
  | indexOutOfBounds (message : String)
  | fileNotFound (message : String)
  | illegalState
  | illegalArgument (message : String)
  /-- Thrown by the provider, the file system or the parser of numbers. -/
  | platform
  deriving DecidableEq

def entryNotFound : Failure := .indexOutOfBounds "Plugin entry binary not found"

def fileMode (storage : Storage) : Mode → Except Failure Int
  | .integer mode => .ok mode
  | .string text =>
      match storage.parseOctal text with
      | some mode => .ok mode
      | none => .error .platform
  | .other => .error (.illegalArgument "File mode should be of type int")

def copyRow (storage : Storage) (row : Row) : List Effect × Except Failure Unit :=
  let file := storage.absolutePath row.path
  if ¬ storage.pluginDir ++ ['/'] <+: file then ([], .error .illegalState)
  else if row.stream = .missing ∨ row.creates = false then ([], .error .platform)
  else if row.stream = .failing then ([.write file], .error .platform)
  else
    match fileMode storage row.mode with
    | .error failure => ([.write file], .error failure)
    | .ok mode =>
        if row.permits then ([.write file, .chmod file mode], .ok ())
        else ([.write file], .error .platform)

def copyRows (storage : Storage) (id : Text) :
    Bool → List Row → List Effect × Except Failure Bool
  | initialized, [] => ([], .ok initialized)
  | initialized, row :: rest =>
      match copyRow storage row with
      | (effects, .error failure) => (effects, .error failure)
      | (effects, .ok ()) =>
          let (others, result) := copyRows storage id (initialized || row.path == id) rest
          (effects ++ others, result)

/-- `cursor` is `none` if the query returns null; `mkdirs` says whether the directory can be
created anew. -/
def initNativeSlow (storage : Storage) (id : Text) (mkdirs : Bool) (cursor : Option (List Row)) :
    List Effect × Except Failure (Option Text) :=
  match cursor with
  | none => ([], .ok none)
  | some rows =>
      if rows = [] then ([], .error entryNotFound)
      else if mkdirs = false then
        ([], .error (.fileNotFound "Unable to create plugin directory"))
      else
        let (effects, result) := copyRows storage id false rows
        (effects, do
          let initialized ← result
          if !initialized then throw entryNotFound
          return some (storage.absolutePath id))

/-! ## Containment -/

structure Completes (storage : Storage) (row : Row) : Prop where
  named : Path.names row.path ≠ []
  stream : row.stream = .whole
  creates : row.creates = true
  mode : ∃ mode, fileMode storage row.mode = .ok mode
  permits : row.permits = true

def Reached (storage : Storage) (cursor : Option (List Row)) (before : List Row) (row : Row) :
    Prop :=
  (∃ after, cursor = some (before ++ row :: after)) ∧
    ∀ earlier ∈ before, Completes storage earlier

def effectsOf (storage : Storage) (rows : List Row) : List Effect :=
  rows.flatMap fun row => (copyRow storage row).1

/-- Files are written and changed inside of the plugin directory only, a path that leads out
of it fails the check before its file is touched, and the entry is a file written. -/
structure Contained (storage : Storage) (id : Text) (mkdirs : Bool)
    (cursor : Option (List Row)) : Prop where
  inside : ∀ effect ∈ (initNativeSlow storage id mkdirs cursor).1,
    Path.Inside storage.pluginDir effect.file
  checked : mkdirs = true → ∀ before row, Reached storage cursor before row →
    ¬ Path.Inside storage.pluginDir (storage.absolutePath row.path) →
    initNativeSlow storage id mkdirs cursor = (effectsOf storage before, .error .illegalState)
  entry : ∀ entry, (initNativeSlow storage id mkdirs cursor).2 = .ok (some entry) →
    .write entry ∈ (initNativeSlow storage id mkdirs cursor).1

inductive Copied (storage : Storage) (row : Row) : List Effect × Except Failure Unit → Prop
  | refused (unnamed : Path.names row.path = []) : Copied storage row ([], .error .illegalState)
  | failed {effects : List Effect} {failure : Failure} (named : Path.names row.path ≠ [])
      (here : ∀ effect ∈ effects, effect.file = storage.absolutePath row.path)
      (other : failure ≠ .illegalState) : Copied storage row (effects, .error failure)
  | done {effects : List Effect} (completes : Completes storage row)
      (here : ∀ effect ∈ effects, effect.file = storage.absolutePath row.path)
      (written : .write (storage.absolutePath row.path) ∈ effects) :
      Copied storage row (effects, .ok ())

section Copying

variable {storage : Storage}

/-- The check passes for every path with a name in it. -/
theorem check_iff (documented : Documented storage) (path : Text) :
    storage.pluginDir ++ ['/'] <+: storage.absolutePath path ↔ Path.names path ≠ [] := by
  rw [documented.absolutePath]
  exact Path.slash_prefix_iff _ _

theorem fileMode_error_ne {mode : Mode} {failure : Failure}
    (failed : fileMode storage mode = .error failure) : failure ≠ .illegalState := by
  rintro rfl
  cases mode with
  | integer mode => cases failed
  | string text =>
      rw [fileMode] at failed
      split at failed <;> cases failed
  | other => cases failed

theorem copied_copyRow (documented : Documented storage) (row : Row) :
    Copied storage row (copyRow storage row) := by
  simp only [copyRow, check_iff documented]
  split
  next unnamed => exact .refused (not_not.mp unnamed)
  next named =>
    have named := not_not.mp named
    split
    · exact .failed named (fun _ member => nomatch member) nofun
    next readable =>
      obtain ⟨present, created⟩ := not_or.mp readable
      split
      · exact .failed named (by simp [Effect.file]) nofun
      next unbroken =>
        split
        next failure invalid =>
          exact .failed named (by simp [Effect.file]) (fileMode_error_ne invalid)
        next mode valid =>
          split
          next permits =>
            have whole : row.stream = .whole := by
              cases stream : row.stream with
              | missing => exact absurd stream present
              | failing => exact absurd stream unbroken
              | whole => rfl
            refine .done ⟨named, whole, Bool.not_eq_false _ ▸ created, ⟨mode, valid⟩, permits⟩ ?_ ?_
            · simp [Effect.file]
            · exact List.mem_cons_self
          next => exact .failed named (by simp [Effect.file]) nofun

/-- A row that can be copied is. -/
theorem copyRow_of_completes (documented : Documented storage) {row : Row}
    (completes : Completes storage row) : (copyRow storage row).2 = .ok () := by
  obtain ⟨mode, valid⟩ := completes.mode
  simp [copyRow, check_iff documented, completes.named, completes.stream, completes.creates,
    valid, completes.permits]

/-! ## The loop -/

theorem copyRows_cons_of_completes (documented : Documented storage) {row : Row}
    (completes : Completes storage row) (id : Text) (initialized : Bool) (rest : List Row) :
    copyRows storage id initialized (row :: rest) =
      ((copyRow storage row).1 ++ (copyRows storage id (initialized || row.path == id) rest).1,
        (copyRows storage id (initialized || row.path == id) rest).2) := by
  have copied := copyRow_of_completes documented completes
  rw [copyRows]
  cases result : copyRow storage row with
  | mk effects outcome =>
      rw [result] at copied
      cases copied
      rfl

/-- The loop behind rows that are copied. -/
theorem copyRows_append (documented : Documented storage) {before : List Row}
    (completes : ∀ row ∈ before, Completes storage row) (id : Text) (initialized : Bool)
    (rest : List Row) :
    ∃ later, copyRows storage id initialized (before ++ rest) =
      (effectsOf storage before ++ (copyRows storage id later rest).1,
        (copyRows storage id later rest).2) := by
  induction before generalizing initialized with
  | nil => exact ⟨initialized, rfl⟩
  | cons row before ih =>
      obtain ⟨later, behind⟩ := ih (fun other member =>
        completes other (List.mem_cons_of_mem _ member)) (initialized || row.path == id)
      refine ⟨later, ?_⟩
      rw [List.cons_append, copyRows_cons_of_completes documented
        (completes row List.mem_cons_self), behind]
      simp only [effectsOf, List.flatMap_cons, List.append_assoc]

/-- Whatever happens to a file happens for a row that was reached. -/
theorem reached_of_mem_copyRows (documented : Documented storage) {id : Text}
    {initialized : Bool} {rows : List Row} {effect : Effect}
    (member : effect ∈ (copyRows storage id initialized rows).1) :
    ∃ before row, Reached storage (some rows) before row ∧
      effect.file = storage.absolutePath row.path := by
  induction rows generalizing initialized with
  | nil => cases member
  | cons row rest ih =>
      have here (fromRow : effect.file = storage.absolutePath row.path) :
          ∃ before row', Reached storage (some (row :: rest)) before row' ∧
            effect.file = storage.absolutePath row'.path :=
        ⟨[], row, ⟨⟨rest, rfl⟩, fun _ none => nomatch none⟩, fromRow⟩
      have copied := copied_copyRow documented row
      rw [copyRows] at member
      cases result : copyRow storage row with
      | mk effects outcome =>
          rw [result] at copied member
          cases copied with
          | refused unnamed => cases member
          | failed named fromRow other => exact here (fromRow effect member)
          | done completes fromRow written =>
              rcases List.mem_append.mp member with now | later
              · exact here (fromRow effect now)
              · obtain ⟨before, reached, ⟨⟨after, same⟩, earlier⟩, file⟩ := ih later
                refine ⟨row :: before, reached, ⟨⟨after, ?_⟩, ?_⟩, file⟩
                · rw [Option.some.inj same]
                  rfl
                · intro other listed
                  rcases List.mem_cons.mp listed with same | inside
                  · rw [same]
                    exact completes
                  · exact earlier other inside

/-- The entry is marked as initialised when its file was written. -/
theorem written_of_copyRows (documented : Documented storage) {id : Text} {initialized : Bool}
    {rows : List Row} (result : (copyRows storage id initialized rows).2 = .ok true) :
    initialized = true ∨
      .write (storage.absolutePath id) ∈ (copyRows storage id initialized rows).1 := by
  induction rows generalizing initialized with
  | nil => exact Or.inl (Except.ok.inj result)
  | cons row rest ih =>
      have copied := copied_copyRow documented row
      rw [copyRows] at result ⊢
      cases outcome : copyRow storage row with
      | mk effects outcome =>
          rw [outcome] at copied result
          cases copied with
          | refused unnamed => cases result
          | failed named fromRow other => cases result
          | done completes fromRow written =>
              dsimp only at result ⊢
              rcases ih result with marked | later
              · rcases (Bool.or_eq_true _ _).mp marked with before | same
                · exact Or.inl before
                · rw [beq_iff_eq.mp same] at written
                  exact Or.inr (List.mem_append_left _ written)
              · exact Or.inr (List.mem_append_right _ later)

/-! ## The whole function -/

theorem initNativeSlow_some (id : Text) {rows : List Row} (nonempty : rows ≠ []) :
    initNativeSlow storage id true (some rows) =
      ((copyRows storage id false rows).1, do
        let initialized ← (copyRows storage id false rows).2
        if !initialized then throw entryNotFound
        return some (storage.absolutePath id)) := by
  simp only [initNativeSlow, nonempty, if_false, Bool.true_eq_false]

/-- The function touches files when the directory was created, and in the loop. -/
theorem mem_initNativeSlow {id : Text} {mkdirs : Bool} {cursor : Option (List Row)}
    {effect : Effect} (member : effect ∈ (initNativeSlow storage id mkdirs cursor).1) :
    mkdirs = true ∧ ∃ rows, cursor = some rows ∧
      effect ∈ (copyRows storage id false rows).1 := by
  cases cursor with
  | none => cases member
  | some rows =>
      by_cases empty : rows = []
      · simp [initNativeSlow, empty] at member
      · cases mkdirs with
        | false => simp [initNativeSlow, empty] at member
        | true =>
            rw [initNativeSlow_some id empty] at member
            exact ⟨rfl, rows, rfl, member⟩

/-- The entry that is returned was written. -/
theorem written_initNativeSlow (documented : Documented storage) {id entry : Text}
    {mkdirs : Bool} {cursor : Option (List Row)}
    (returned : (initNativeSlow storage id mkdirs cursor).2 = .ok (some entry)) :
    .write entry ∈ (initNativeSlow storage id mkdirs cursor).1 := by
  cases cursor with
  | none => cases returned
  | some rows =>
      by_cases empty : rows = []
      · simp [initNativeSlow, empty] at returned
      · cases mkdirs with
        | false => simp [initNativeSlow, empty] at returned
        | true =>
            rw [initNativeSlow_some id empty] at returned ⊢
            dsimp only at returned ⊢
            cases result : (copyRows storage id false rows).2 with
            | error failure =>
                rw [result] at returned
                cases returned
            | ok initialized =>
                rw [result] at returned
                cases initialized with
                | false => cases returned
                | true =>
                    cases returned
                    exact (written_of_copyRows documented result).resolve_left
                      Bool.false_ne_true

/-- A row that leads out of the directory passes the check: the run does not end there. -/
theorem initNativeSlow_ne_of_escape (documented : Documented storage) {id : Text}
    {cursor : Option (List Row)} {before : List Row} {row : Row}
    (reached : Reached storage cursor before row)
    (outside : ¬ Path.Stays storage.pluginDir row.path) :
    initNativeSlow storage id true cursor ≠ (effectsOf storage before, .error .illegalState) := by
  obtain ⟨⟨after, rfl⟩, completes⟩ := reached
  have named : Path.names row.path ≠ [] := by
    intro unnamed
    apply outside
    rw [Path.Stays, unnamed]
    exact List.prefix_refl _
  obtain ⟨later, behind⟩ := copyRows_append documented completes id false (row :: after)
  have copied := copied_copyRow documented row
  rw [initNativeSlow_some id (by simp), behind, copyRows]
  intro same
  cases outcome : copyRow storage row with
  | mk effects outcome =>
      rw [outcome] at copied same
      cases copied with
      | refused unnamed => exact named unnamed
      | failed _ here other => exact other (Except.error.inj (Prod.mk.inj same).2)
      | done _ here written =>
          have nothing := List.append_right_eq_self.mp (Prod.mk.inj same).1
          rw [(List.append_eq_nil_iff.mp nothing).1] at written
          cases written

/-- The plugin directory contains what is unpacked exactly if every path that is reached
stays in it. -/
theorem contained_iff_stays (documented : Documented storage) (id : Text) (mkdirs : Bool)
    (cursor : Option (List Row)) :
    Contained storage id mkdirs cursor ↔
      (mkdirs = true → ∀ before row, Reached storage cursor before row →
        Path.Stays storage.pluginDir row.path) := by
  have inside_iff (path : Text) :
      Path.Inside storage.pluginDir (storage.absolutePath path) ↔
        Path.Stays storage.pluginDir path := by
    rw [documented.absolutePath]
    exact Path.inside_append_join_iff _ _
  constructor
  · rintro contained rfl before row reached
    by_contra outside
    have checked := contained.checked rfl before row reached (mt (inside_iff _).mp outside)
    exact initNativeSlow_ne_of_escape documented reached outside checked
  · intro stays
    refine ⟨?_, ?_, fun entry returned => written_initNativeSlow documented returned⟩
    · intro effect member
      obtain ⟨created, rows, rfl, inLoop⟩ := mem_initNativeSlow member
      obtain ⟨before, row, reached, file⟩ := reached_of_mem_copyRows documented inLoop
      rw [file, inside_iff]
      exact stays created before row reached
    · intro created before row reached outside
      exact absurd ((inside_iff _).mpr (stays created before row reached)) outside

end Copying

def plainStorage : Storage where
  pluginDir := "/data/plugin".toList
  absolutePath path := "/data/plugin".toList ++ Path.join (Path.names path)
  parseOctal _ := none

def plainRow (path : Text) : Row := ⟨path, .integer 448, .whole, true, true⟩

def entryName : Text := "obfs-local".toList

theorem contained_plainRow : Documented plainStorage ∧
    Contained plainStorage entryName true (some [plainRow entryName]) := by
  have documented : Documented plainStorage := ⟨fun _ => rfl⟩
  refine ⟨documented, (contained_iff_stays documented _ _ _).mpr ?_⟩
  rintro - before row ⟨⟨after, same⟩, -⟩
  cases before with
  | nil =>
      obtain ⟨rfl, -⟩ := List.cons.inj (Option.some.inj same)
      decide
  | cons first rest => simp at same

def parentName : Text := "../obfs-local".toList

/-- A file next to the plugin directory is overwritten. -/
theorem not_contained_parentName : Documented plainStorage ∧
    ¬ Contained plainStorage parentName true (some [plainRow parentName]) := by
  refine ⟨⟨fun _ => rfl⟩, fun contained => ?_⟩
  have written : Effect.write "/data/plugin/../obfs-local".toList ∈
      (initNativeSlow plainStorage parentName true (some [plainRow parentName])).1 := by
    decide
  exact absurd (contained.inside _ written) (by decide)

end PluginManager

end AlienConnection.Plugin
