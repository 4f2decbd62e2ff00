import AlienConnection.Plugin.OptionsRoundTrip
import AlienConnection.Utils.Commandline

/-!
# Plugin configurations

A plugin column has a line of options for every plugin. The first line names the one
that is selected; of several lines for one plugin the last one counts. A line that
begins with `kcptun` and a blank is a command line of old versions.
-/

namespace AlienConnection.Plugin

open Library Utils

structure PluginConfiguration where
  pluginsOptions : List (String × PluginOptions)
  selected : String
  deriving DecidableEq

namespace PluginConfiguration

/-- The loop over the arguments of a command line. An exception leaves it, with what has
been put so far. -/
def kcptunOptions : List Text → PluginOptions → PluginOptions
  | [], opt => opt
  | option :: rest, opt =>
      if option = "--nocomp".toList then
        kcptunOptions rest { opt with entries := LinkedMap.put "nocomp" none opt.entries }
      else if "--".toList.isPrefixOf option then
        match rest with
        | [] => opt
        | value :: more =>
            kcptunOptions more
              { opt with
                entries := LinkedMap.put (String.ofList (option.drop 2))
                  (some (String.ofList value)) opt.entries }
      else opt

/-- How the command lines of old versions begin. -/
def legacyStart : Text := "kcptun ".toList

def readLine (line : Text) : Except String PluginOptions :=
  if legacyStart.isPrefixOf line then
    match Commandline.translateCommandline line with
    | .error _ => .ok { id := "kcptun" }
    | .ok arguments => .ok (kcptunOptions (arguments.drop 1) { id := "kcptun" })
  else PluginOptions.read (some (String.ofList line)) true

def ofPlugins (plugins : List PluginOptions) : PluginConfiguration where
  pluginsOptions := (plugins.filter (fun options => options.id ≠ "")).foldl
    (fun built options => LinkedMap.put options.id options built) []
  selected := (plugins.head?.map PluginOptions.id).getD ""

/-- `PluginConfiguration(plugin)`. The failure is the message of the check of a line. -/
def read (plugin : String) : Except String PluginConfiguration :=
  ((plugin.toList.splitOn '\n').mapM readLine).map ofPlugins

/-- `getOptions`. The default configuration of a plugin comes from its package. -/
def getOptions (defaultConfig : String → Option String) (configuration : PluginConfiguration)
    (id : String) : Except String PluginOptions :=
  if id = "" then .ok {}
  else
    match LinkedMap.get id configuration.pluginsOptions with
    | some options => .ok options
    | none => PluginOptions.withId id (defaultConfig id)

def selectedOptions (defaultConfig : String → Option String)
    (configuration : PluginConfiguration) : Except String PluginOptions :=
  configuration.getOptions defaultConfig configuration.selected

/-- The loop of `toString`: the selected options are added in front, others behind. -/
def enlist (selected : String) (result : List PluginOptions) (entry : String × PluginOptions) :
    List PluginOptions :=
  if entry.1 = selected then entry.2 :: result else result ++ [entry.2]

def listed (configuration : PluginConfiguration) : List PluginOptions :=
  configuration.pluginsOptions.foldl (enlist configuration.selected) []

/-- `toString`. The failure is one of the default configuration of a plugin that is selected
without having options. -/
def toString (order : HashOrder) (defaultConfig : String → Option String)
    (configuration : PluginConfiguration) : Except String String := do
  let result ←
    if configuration.selected ∈ LinkedMap.keys configuration.pluginsOptions then
      pure configuration.listed
    else do
      pure ((← configuration.selectedOptions defaultConfig) :: configuration.listed)
  return String.ofList (['\n'].intercalate
    (result.map fun options => (options.render order false).toList))

end PluginConfiguration

/-! ## What is read -/

namespace PluginOptions

/-- Options that a reader can make: no key twice, no entry without a text, and only
allowed characters. -/
structure Readable (allowed : Char → Prop) (options : PluginOptions) : Prop where
  distinct : options.Distinct
  entered : ("", none) ∉ options.entries
  id : ∀ char ∈ options.id.toList, allowed char
  keys : ∀ entry ∈ options.entries, ∀ char ∈ entry.1.toList, allowed char
  values : ∀ entry ∈ options.entries, ∀ text ∈ entry.2, ∀ char ∈ text.toList, allowed char

variable {allowed : Char → Prop} {options : PluginOptions}

theorem readable_named {id : String} (fine : ∀ char ∈ id.toList, allowed char) :
    Readable allowed { id := id } :=
  ⟨List.nodup_nil, List.not_mem_nil, fine, fun _ none => absurd none List.not_mem_nil,
    fun _ none => absurd none List.not_mem_nil⟩

theorem Readable.rename (readable : Readable allowed options) {id : String}
    (fine : ∀ char ∈ id.toList, allowed char) : Readable allowed { options with id := id } :=
  ⟨readable.distinct, readable.entered, fine, readable.keys, readable.values⟩

theorem Readable.put (readable : Readable allowed options) {key : String} {value : Option String}
    (entered : (key, value) ≠ ("", none)) (fineKey : ∀ char ∈ key.toList, allowed char)
    (fineValue : ∀ text ∈ value, ∀ char ∈ text.toList, allowed char) :
    Readable allowed { options with entries := LinkedMap.put key value options.entries } where
  distinct := LinkedMap.nodup_put value readable.distinct
  entered := by
    intro member
    rcases LinkedMap.mem_put member with before | ⟨sameKey, sameValue⟩
    · exact readable.entered before
    · exact entered (by rw [← sameKey, ← sameValue])
  id := readable.id
  keys := by
    intro entry member
    rcases LinkedMap.mem_put member with before | ⟨sameKey, _⟩
    · exact readable.keys entry before
    · rw [sameKey]
      exact fineKey
  values := by
    intro entry member
    rcases LinkedMap.mem_put member with before | ⟨_, sameValue⟩
    · exact readable.values entry before
    · rw [sameValue]
      exact fineValue

theorem Readable.mono (readable : Readable allowed options) {wider : Char → Prop}
    (implies : ∀ char, allowed char → wider char) : Readable wider options :=
  ⟨readable.distinct, readable.entered, fun char member => implies char (readable.id char member),
    fun entry listed char member => implies char (readable.keys entry listed char member),
    fun entry listed text given char member =>
      implies char (readable.values entry listed text given char member)⟩

structure Reader.Fine (allowed : Char → Prop) (reader : Reader) : Prop where
  options : Readable allowed reader.options
  current : ∀ char ∈ reader.current, allowed char
  key : ∀ key ∈ reader.key, ∀ char ∈ key.toList, allowed char

namespace Reader.Fine

variable {reader : Reader}

theorem append (fine : reader.Fine allowed) {char : Char} (added : allowed char) :
    (reader.append [char]).Fine allowed where
  options := fine.options
  current := by
    intro other member
    rcases List.mem_append.mp member with before | here
    · exact fine.current other before
    · rw [List.mem_singleton.mp here]
      exact added
  key := fine.key

theorem equality (fine : reader.Fine allowed) (sign : allowed '=') :
    reader.equality.Fine allowed := by
  rw [Reader.equality]
  split
  · refine ⟨fine.options, fun _ none => absurd none List.not_mem_nil, ?_⟩
    intro key same
    rw [← Option.some.inj same, String.toList_ofList]
    exact fine.current
  · exact fine.append sign

theorem endOption (fine : reader.Fine allowed) : reader.endOption.Fine allowed := by
  have current : ∀ char ∈ (String.ofList reader.current).toList, allowed char := by
    rw [String.toList_ofList]
    exact fine.current
  refine ⟨?_, fun _ none => absurd none List.not_mem_nil, fun _ none => by cases none⟩
  rw [Reader.endOption]
  dsimp only
  split
  next key given =>
    have entered : (key, some (String.ofList reader.current)) ≠ ("", none) := by simp
    apply fine.options.put entered (fine.key key given)
    intro text same
    rw [← Option.some.inj same]
    exact current
  next =>
    split
    · exact fine.options
    next nonempty =>
      split
      · exact fine.options.rename current
      · refine fine.options.put ?_ current (fun _ none => by cases none)
        intro same
        have empty := congrArg String.toList (congrArg Prod.fst same)
        rw [String.toList_ofList] at empty
        rw [empty] at nonempty
        exact nonempty rfl

theorem plain (fine : reader.Fine allowed) {char : Char} (added : allowed char) :
    (reader.plain char).Fine allowed := by
  rw [Reader.plain]
  split
  next same =>
    rw [same] at added
    exact fine.equality added
  next =>
    split
    · exact fine.endOption
    · exact fine.append added

/-- Reading allowed characters. -/
theorem readChars {chars : List Char} (fine : reader.Fine allowed)
    (added : ∀ char ∈ chars, allowed char) : (readChars chars reader).Fine allowed := by
  induction chars, reader using readChars.induct with
  | case1 reader => exact fine
  | case2 first reader => exact fine.plain (added first List.mem_cons_self)
  | case3 reader second behind ih =>
      rw [readChars_escaped]
      apply ih (fine.append (added second (by simp)))
      exact fun char member => added char (by simp [member])
  | case4 first reader second behind notSlash ih =>
      rw [readChars_plain notSlash]
      apply ih (fine.plain (added first List.mem_cons_self))
      exact fun char member => added char (List.mem_cons_of_mem _ member)

end Reader.Fine

/-- Options that are read have no control characters. -/
theorem readable_read {text : Option String} {parseId : Bool}
    (accepted : read text parseId = .ok options) :
    Readable (fun char => isISOControl char = false) options := by
  have start : Readable (fun char => isISOControl char = false) ({} : PluginOptions) :=
    readable_named (fun _ none => absurd none List.not_mem_nil)
  simp only [read] at accepted
  split at accepted
  · cases accepted
    exact start
  · split at accepted
    · cases accepted
    next clean =>
      cases accepted
      have fresh : Reader.Fine (fun char => isISOControl char = false)
          { parseId := parseId } :=
        ⟨start, fun _ none => absurd none List.not_mem_nil, fun _ none => by cases none⟩
      rw [readTokens_tokenize]
      apply Reader.Fine.options
      apply fresh.readChars
      intro char member
      rcases List.mem_append.mp member with inside | last
      · exact Bool.eq_false_iff.mpr (fun control => clean (List.any_eq_true.mpr ⟨_, inside, control⟩))
      · rw [List.mem_singleton.mp last]
        rfl

end PluginOptions

end AlienConnection.Plugin
