import AlienConnection.Plugin.ReadBack

/-!
# Writing a configuration and reading it back

A configuration is written with one line for each plugin, the selected one first. Two
kinds of lines are read but only one is written: a name that begins like a command line
of old versions is not protected by escaping, and control characters that such a command
line brought in are refused on the way back.
-/

namespace AlienConnection.Plugin

open Library Utils PluginOptions

namespace PluginConfiguration

def SameOptions : Option PluginOptions → Option PluginOptions → Prop
  | none, none => True
  | some first, some second => first.Equals second
  | _, _ => False

/-- The text of a configuration is read as one with the same selection and, for every
plugin, equal options. -/
def RoundTrips (order : HashOrder) (defaultConfig : String → Option String)
    (configuration : PluginConfiguration) : Prop :=
  ∃ text copy, configuration.toString order defaultConfig = .ok text ∧ read text = .ok copy ∧
    copy.selected = configuration.selected ∧
    ∀ id, SameOptions (LinkedMap.get id copy.pluginsOptions)
      (LinkedMap.get id configuration.pluginsOptions)

/-! ## What is written -/

def written (configuration : PluginConfiguration) : List PluginOptions :=
  if configuration.selected ∈ LinkedMap.keys configuration.pluginsOptions then
    configuration.listed
  else {} :: configuration.listed

def rendered (order : HashOrder) (options : PluginOptions) : Text :=
  (options.render order false).toList

theorem rendered_named {order : HashOrder} {options : PluginOptions} (named : options.id ≠ "") :
    rendered order options = line order options := by
  rw [rendered, render_eq_line named, String.toList_ofList]

section Written

variable {order : HashOrder} {configuration : PluginConfiguration}

theorem perm_foldl_listed (selected : String) (entries : List (String × PluginOptions))
    (result : List PluginOptions) :
    (entries.foldl (enlist selected) result).Perm (result ++ entries.map Prod.snd) := by
  induction entries generalizing result with
  | nil => simp
  | cons entry rest ih =>
      apply (ih _).trans
      rw [enlist]
      split
      · exact List.perm_middle.symm
      · simp

theorem perm_listed : configuration.listed.Perm (configuration.pluginsOptions.map Prod.snd) :=
  perm_foldl_listed configuration.selected configuration.pluginsOptions []

/-- The selected options stay in front. -/
theorem head_foldl_listed {selected : String} {entries : List (String × PluginOptions)}
    (keyed : ∀ entry ∈ entries, entry.2.id = entry.1) {result : List PluginOptions}
    (present : result.head?.map PluginOptions.id = some selected ∨
      selected ∈ LinkedMap.keys entries) :
    (entries.foldl (enlist selected) result).head?.map PluginOptions.id = some selected := by
  induction entries generalizing result with
  | nil => exact present.resolve_right List.not_mem_nil
  | cons entry rest ih =>
      apply ih (fun other member => keyed other (List.mem_cons_of_mem _ member))
      rw [enlist]
      split
      next same =>
        left
        rw [List.head?_cons, Option.map_some, keyed entry List.mem_cons_self, same]
      next differs =>
        rcases present with front | inside
        · left
          cases result with
          | nil => cases front
          | cons first others => exact front
        · right
          exact (List.mem_cons.mp inside).resolve_left (Ne.symm differs)

theorem head_written (stored : Stored configuration) :
    (written configuration).head?.map PluginOptions.id = some configuration.selected := by
  rw [written]
  split
  next present => exact head_foldl_listed stored.keyed (Or.inr present)
  next absent =>
    have unnamed : configuration.selected = "" := by
      by_contra named
      exact absent (stored.selected named)
    rw [unnamed]
    rfl

/-- Every line is that of stored options, or empty. -/
theorem mem_written {options : PluginOptions} (member : options ∈ written configuration) :
    options = {} ∨ ∃ id, (id, options) ∈ configuration.pluginsOptions := by
  have stored (inside : options ∈ configuration.listed) :
      ∃ id, (id, options) ∈ configuration.pluginsOptions := by
    obtain ⟨⟨id, _⟩, listed, rfl⟩ := List.mem_map.mp (perm_listed.mem_iff.mp inside)
    exact ⟨id, listed⟩
  rw [written] at member
  split at member
  · exact Or.inr (stored member)
  · rcases List.mem_cons.mp member with empty | inside
    · exact Or.inl empty
    · exact Or.inr (stored inside)

theorem written_of_mem {id : String} {options : PluginOptions}
    (member : (id, options) ∈ configuration.pluginsOptions) : options ∈ written configuration := by
  have inside : options ∈ configuration.listed :=
    perm_listed.mem_iff.mpr (List.mem_map.mpr ⟨_, member, rfl⟩)
  rw [written]
  split
  · exact inside
  · exact List.mem_cons_of_mem _ inside

/-- The lines with a name are those of the stored options. -/
theorem perm_named_written (stored : Stored configuration) :
    ((written configuration).filter fun options => options.id ≠ "").Perm
      (configuration.pluginsOptions.map Prod.snd) := by
  have all : (configuration.pluginsOptions.map Prod.snd).filter
      (fun options => options.id ≠ "") = configuration.pluginsOptions.map Prod.snd := by
    apply List.filter_eq_self.mpr
    intro options member
    obtain ⟨entry, listed, rfl⟩ := List.mem_map.mp member
    rw [stored.keyed entry listed]
    exact decide_eq_true (stored.named entry listed)
  have kept : (configuration.listed.filter fun options => options.id ≠ "").Perm
      (configuration.pluginsOptions.map Prod.snd) := by
    have filtered := (@perm_listed configuration).filter fun options => options.id ≠ ""
    rw [all] at filtered
    exact filtered
  rw [written]
  split
  · exact kept
  · exact kept

theorem toString_eq (stored : Stored configuration) (defaultConfig : String → Option String) :
    configuration.toString order defaultConfig =
      .ok (String.ofList (['\n'].intercalate ((written configuration).map (rendered order)))) := by
  rw [toString, written]
  split
  · rfl
  next absent =>
    have unnamed : configuration.selected = "" := by
      by_contra named
      exact absent (stored.selected named)
    have nothing : configuration.selectedOptions defaultConfig = .ok {} := if_pos unnamed
    rw [nothing]
    rfl

theorem unbroken_rendered (walks : Walks order) (stored : Stored configuration)
    {options : PluginOptions} (member : options ∈ written configuration) :
    '\n' ∉ rendered order options := by
  rcases mem_written member with rfl | ⟨id, listed⟩
  · exact List.not_mem_nil
  · have named : options.id ≠ "" := by
      rw [stored.keyed _ listed]
      exact stored.named _ listed
    rw [rendered_named named]
    exact unbroken_line walks (stored.legible _ listed)

/-- The text is read line by line. -/
theorem read_written (walks : Walks order) (stored : Stored configuration) :
    read (String.ofList (['\n'].intercalate ((written configuration).map (rendered order)))) =
      (((written configuration).map (rendered order)).mapM readLine).map ofPlugins := by
  have nonempty : (written configuration).map (rendered order) ≠ [] := by
    intro none
    have head := head_written stored
    rw [List.map_eq_nil_iff.mp none] at head
    cases head
  have unbroken : ∀ line ∈ (written configuration).map (rendered order), '\n' ∉ line := by
    intro line member
    obtain ⟨options, listed, rfl⟩ := List.mem_map.mp member
    exact unbroken_rendered walks stored listed
  rw [read, String.toList_ofList, List.splitOn_intercalate '\n' unbroken nonempty]

end Written

/-! ## Reading back -/

section ReadingBack

variable {order : HashOrder} {configuration : PluginConfiguration}

def walked (order : HashOrder) (options : PluginOptions) : PluginOptions :=
  { options with entries := order options.entries }

def Writable (options : PluginOptions) : Prop :=
  options.entries.any entryHasControl = false ∧ ¬ legacyStart <+: options.id.toList

theorem walked_unnamed (walks : Walks order) : walked order {} = {} := by
  rw [walked, List.Perm.eq_nil (walks [])]

theorem readLine_rendered (walks : Walks order) (stored : Stored configuration)
    (writable : ∀ entry ∈ configuration.pluginsOptions, Writable entry.2)
    {options : PluginOptions} (member : options ∈ written configuration) :
    readLine (rendered order options) = .ok (walked order options) := by
  rcases mem_written member with rfl | ⟨id, listed⟩
  · rw [walked_unnamed walks]
    rfl
  · have named : options.id ≠ "" := by
      rw [stored.keyed _ listed]
      exact stored.named _ listed
    obtain ⟨clean, modern⟩ := writable _ listed
    have lineRead := lineRead_readLine walks (stored.legible _ listed) named
    rw [rendered_named named]
    cases made : readLine (line order options) with
    | error message =>
        rw [made] at lineRead
        cases lineRead with
        | refused _ control => rw [control] at clean; cases clean
    | ok other =>
        rw [made] at lineRead
        cases lineRead with
        | command begins _ => exact absurd begins modern
        | restored _ _ => rfl

/-- The options of a copy are those of the original, walked. -/
theorem get_ofPlugins_walked (stored : Stored configuration) (id : String) :
    LinkedMap.get id (ofPlugins ((written configuration).map (walked order))).pluginsOptions =
      (LinkedMap.get id configuration.pluginsOptions).map (walked order) := by
  have named : ((written configuration).map (walked order)).filter (fun options => options.id ≠ "") =
      ((written configuration).filter fun options => options.id ≠ "").map (walked order) := by
    rw [List.filter_map]
    rfl
  have keyed : (configuration.pluginsOptions.map Prod.snd).map
      (fun options => (options.id, walked order options)) =
      configuration.pluginsOptions.map (fun entry => (entry.1, walked order entry.2)) := by
    rw [List.map_map]
    apply List.map_congr_left
    intro entry listed
    simp only [Function.comp_apply, stored.keyed entry listed]
  have same := (perm_named_written stored).map
    (fun options => (options.id, walked order options))
  rw [keyed] at same
  have distinct : (LinkedMap.keys (configuration.pluginsOptions.map
      (fun entry => (entry.1, walked order entry.2)))).Nodup := by
    rw [LinkedMap.keys, List.map_map]
    exact stored.distinct
  have distinctWritten := (same.map Prod.fst).nodup_iff.mpr distinct
  have built : (ofPlugins ((written configuration).map (walked order))).pluginsOptions =
      ((written configuration).filter fun options => options.id ≠ "").map
        (fun options => (options.id, walked order options)) := by
    rw [← LinkedMap.foldl_put_nil distinctWritten, ofPlugins, named, List.foldl_map, List.foldl_map]
    rfl
  rw [built, LinkedMap.get_perm same distinct, LinkedMap.get_map]

theorem roundTrips_of_writable (walks : Walks order) (defaultConfig : String → Option String)
    (stored : Stored configuration)
    (writable : ∀ entry ∈ configuration.pluginsOptions, Writable entry.2) :
    RoundTrips order defaultConfig configuration := by
  have lines : ((written configuration).map (rendered order)).mapM readLine =
      .ok ((written configuration).map (walked order)) := by
    rw [Machine.mapM_eq_ok_iff, List.forall₂_map_left_iff, List.forall₂_map_right_iff,
      List.forall₂_same]
    exact fun options member => readLine_rendered walks stored writable member
  refine ⟨_, ofPlugins ((written configuration).map (walked order)),
    toString_eq stored defaultConfig, ?_, ?_, ?_⟩
  · rw [read_written walks stored, lines]
    rfl
  · have head := head_written stored
    rw [ofPlugins, List.head?_map, Option.map_map]
    exact congrArg (fun name => name.getD "") head
  · intro id
    rw [get_ofPlugins_walked stored]
    cases found : LinkedMap.get id configuration.pluginsOptions with
    | none => exact trivial
    | some options =>
        exact equals_walked walks
          (stored.legible _ (LinkedMap.mem_of_get found)).readable.distinct

/-- A line that is read has the name that was written, or is a command line. -/
theorem id_of_readLine_rendered (walks : Walks order) (stored : Stored configuration)
    {options made : PluginOptions} (member : options ∈ written configuration)
    (read : readLine (rendered order options) = .ok made) :
    made.id = "kcptun" ∧ legacyStart <+: options.id.toList ∨
      made.id = options.id ∧ Writable options := by
  rcases mem_written member with rfl | ⟨id, listed⟩
  · cases read
    exact Or.inr ⟨rfl, rfl, by decide⟩
  · have named : options.id ≠ "" := by
      rw [stored.keyed _ listed]
      exact stored.named _ listed
    have lineRead := lineRead_readLine walks (stored.legible _ listed) named
    rw [rendered_named named] at read
    rw [read] at lineRead
    cases lineRead with
    | command begins kcptun => exact Or.inl ⟨kcptun, begins⟩
    | restored modern clean => exact Or.inr ⟨rfl, clean, modern⟩

theorem writable_of_roundTrips (walks : Walks order) {defaultConfig : String → Option String}
    (stored : Stored configuration) (restored : RoundTrips order defaultConfig configuration) :
    ∀ entry ∈ configuration.pluginsOptions, Writable entry.2 := by
  rintro ⟨id, options⟩ listed
  obtain ⟨text, copy, shown, accepted, -, same⟩ := restored
  rw [toString_eq stored] at shown
  cases shown
  rw [read_written walks stored] at accepted
  cases lines : ((written configuration).map (rendered order)).mapM readLine with
  | error message =>
      rw [lines] at accepted
      cases accepted
  | ok plugins =>
      rw [lines] at accepted
      cases accepted
      have inText := written_of_mem listed
      obtain ⟨made, read⟩ := Machine.ok_of_mem_mapM lines (List.mem_map.mpr ⟨_, inText, rfl⟩)
      rcases id_of_readLine_rendered walks stored inText read with ⟨-, begins⟩ | ⟨-, writable⟩
      · -- the name is on no other line, and its own line has become a command line
        exfalso
        have present : (LinkedMap.get id (ofPlugins plugins).pluginsOptions).isSome := by
          have here := same id
          rw [(LinkedMap.get_eq_some_iff stored.distinct).mpr listed] at here
          cases found : LinkedMap.get id (ofPlugins plugins).pluginsOptions with
          | none =>
              rw [found] at here
              exact here.elim
          | some other => rfl
        obtain ⟨other, found⟩ := Option.isSome_iff_exists.mp present
        rcases LinkedMap.mem_of_get_foldl PluginOptions.id found with none | ⟨kept, otherId⟩
        · cases none
        · obtain ⟨_, inLines, readOther⟩ :=
            Machine.exists_of_mem_mapM lines (List.mem_filter.mp kept).1
          obtain ⟨source, inWritten, rfl⟩ := List.mem_map.mp inLines
          have name : options.id = id := stored.keyed _ listed
          have idBegins : legacyStart <+: id.toList := by
            rw [← name]
            exact begins
          rcases id_of_readLine_rendered walks stored inWritten readOther with
            ⟨kcptun, -⟩ | ⟨sameId, -, modern⟩
          · rw [← otherId, kcptun] at idBegins
            exact absurd idBegins (by decide)
          · rw [← sameId, otherId] at modern
            exact modern idBegins
      · exact writable

/-- A configuration is read back from its text exactly if its lines can hold every stored
options. -/
theorem roundTrips_iff_writable (walks : Walks order) (defaultConfig : String → Option String)
    {plugin : String} (accepted : read plugin = .ok configuration) :
    RoundTrips order defaultConfig configuration ↔
      ∀ entry ∈ configuration.pluginsOptions, Writable entry.2 :=
  ⟨writable_of_roundTrips walks (stored_read accepted),
    roundTrips_of_writable walks defaultConfig (stored_read accepted)⟩

def twoPlugins : PluginConfiguration :=
  ofPlugins [{ id := "obfs", entries := [("k", some "v")] }, { id := "other" }]

theorem roundTrips_twoPlugins :
    read "obfs;k=v\nother" = .ok twoPlugins ∧ RoundTrips id (fun _ => none) twoPlugins := by
  have accepted : read "obfs;k=v\nother" = .ok twoPlugins := rfl
  refine ⟨accepted, (roundTrips_iff_writable (fun _ => List.Perm.refl _) _ accepted).mpr ?_⟩
  intro entry member
  have both : entry = ("obfs", { id := "obfs", entries := [("k", some "v")] }) ∨
      entry = ("other", { id := "other" }) := by
    simpa [twoPlugins, ofPlugins, LinkedMap.put] using member
  rcases both with rfl | rfl
  · exact ⟨rfl, by decide⟩
  · exact ⟨rfl, by decide⟩

def commandName : PluginConfiguration := ofPlugins [{ id := "kcptun x" }]

/-- The escape that kept the name from being a command line is not written. -/
theorem not_roundTrips_commandName : read "\\kcptun x" = .ok commandName ∧
    ¬ RoundTrips id (fun _ => none) commandName := by
  have accepted : read "\\kcptun x" = .ok commandName := rfl
  refine ⟨accepted, fun restored => ?_⟩
  have writable := writable_of_roundTrips (fun _ => List.Perm.refl _) (stored_read accepted)
    restored ("kcptun x", { id := "kcptun x" }) List.mem_cons_self
  exact writable.2 (by decide)

end ReadingBack

end PluginConfiguration

end AlienConnection.Plugin
