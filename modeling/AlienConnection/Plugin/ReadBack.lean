import AlienConnection.Library.Machine
import AlienConnection.Plugin.PluginConfiguration

/-!
# Reading a selected plugin back

The options of the selected plugin, written on one line, are read as that selection
again, unless the line would pass for a command line of an old version or has control
characters, which only such a command line can bring in. A line that has lost its end
is never read as the same selection.
-/

namespace AlienConnection.Plugin

open Library Utils PluginOptions

namespace PluginConfiguration

variable {options : PluginOptions} {defaultConfig : String → Option String}

/-! ## Lines -/

/-- What a line can be read as: its texts are on one line, and its name has no control
characters. -/
structure Legible (options : PluginOptions) : Prop where
  readable : options.Readable (· ≠ '\n')
  name : hasControl options.id = false

theorem legible_empty : Legible {} :=
  ⟨readable_named (fun _ none => absurd none List.not_mem_nil), rfl⟩

theorem unbroken_of_all {text : Text} (all : text.all (· != '\n') = true) :
    ∀ char ∈ text, char ≠ '\n' :=
  fun char member => bne_iff_ne.mp (List.all_eq_true.mp all char member)

theorem readable_kcptunOptions {allowed : Char → Prop}
    (flag : ∀ char ∈ "nocomp".toList, allowed char) {arguments : List Text}
    (fine : ∀ argument ∈ arguments, ∀ char ∈ argument, allowed char)
    (readable : options.Readable allowed) :
    (kcptunOptions arguments options).Readable allowed := by
  fun_induction kcptunOptions arguments options with
  | case1 options => exact readable
  | case2 options rest ih =>
      apply ih
      · exact fun argument listed => fine argument (List.mem_cons_of_mem _ listed)
      · exact readable.put (by decide) flag (fun _ none => nomatch none)
  | case3 option options other dashes => exact readable
  | case4 option options other dashes value more ih =>
      apply ih
      · exact fun argument listed => fine argument (by simp [listed])
      · have entered : (String.ofList (option.drop 2), some (String.ofList value)) ≠ ("", none) := by
          simp
        refine readable.put entered ?_ ?_
        · rw [String.toList_ofList]
          exact fun char member => fine option List.mem_cons_self char (List.mem_of_mem_drop member)
        · intro text same
          rw [← Option.some.inj same, String.toList_ofList]
          exact fine value (by simp)
  | case5 option rest options other dashes => exact readable

theorem id_kcptunOptions (arguments : List Text) (options : PluginOptions) :
    (kcptunOptions arguments options).id = options.id := by
  fun_induction kcptunOptions arguments options with
  | case1 options => rfl
  | case2 options rest ih => exact ih
  | case3 option options other dashes => rfl
  | case4 option options other dashes value more ih => exact ih
  | case5 option rest options other dashes => rfl

/-- The name that a command line of an old version has. -/
theorem readLine_legacy {line : Text} (legacy : legacyStart.isPrefixOf line = true) :
    ∃ options, readLine line = .ok options ∧ options.id = "kcptun" ∧
      ('\n' ∉ line → options.Readable (· ≠ '\n')) := by
  have named : Readable (· ≠ '\n') { id := "kcptun" } :=
    readable_named (unbroken_of_all rfl)
  rw [readLine, if_pos legacy]
  cases cracked : Commandline.translateCommandline line with
  | error message => exact ⟨_, rfl, rfl, fun _ => named⟩
  | ok arguments =>
      refine ⟨_, rfl, id_kcptunOptions _ _, fun unbroken => ?_⟩
      have fine : ∀ argument ∈ arguments, ∀ char ∈ argument, char ≠ '\n' := by
        apply Commandline.translateCommandline_within (· ≠ '\n') (by decide) _ cracked
        rintro char member rfl
        exact unbroken member
      apply readable_kcptunOptions (unbroken_of_all rfl) _ named
      exact fun argument listed => fine argument (List.mem_of_mem_drop listed)

theorem legible_readLine {line : Text} (unbroken : '\n' ∉ line)
    (accepted : readLine line = .ok options) : Legible options := by
  by_cases legacy : legacyStart.isPrefixOf line = true
  · obtain ⟨made, read, named, readable⟩ := readLine_legacy legacy
    rw [accepted] at read
    cases read
    exact ⟨readable unbroken, by rw [named]; rfl⟩
  · rw [readLine, if_neg legacy] at accepted
    have readable := readable_read accepted
    constructor
    · apply readable.mono
      rintro char clean rfl
      cases clean
    · rw [hasControl, List.any_eq_false]
      intro char member
      rw [readable.id char member]
      exact Bool.false_ne_true

/-! ## Selections -/

structure Stored (configuration : PluginConfiguration) : Prop where
  distinct : (LinkedMap.keys configuration.pluginsOptions).Nodup
  keyed : ∀ entry ∈ configuration.pluginsOptions, entry.2.id = entry.1
  named : ∀ entry ∈ configuration.pluginsOptions, entry.1 ≠ ""
  legible : ∀ entry ∈ configuration.pluginsOptions, Legible entry.2
  selected : configuration.selected ≠ "" →
    configuration.selected ∈ LinkedMap.keys configuration.pluginsOptions

/-- Putting options under their names, where every name is new or known. -/
theorem stored_foldl {plugins : List PluginOptions}
    (legible : ∀ options ∈ plugins, Legible options ∧ options.id ≠ "")
    {built : List (String × PluginOptions)} (distinct : (LinkedMap.keys built).Nodup)
    (fine : ∀ entry ∈ built, entry.2.id = entry.1 ∧ entry.1 ≠ "" ∧ Legible entry.2) :
    let result := plugins.foldl (fun built options => LinkedMap.put options.id options built) built
    (LinkedMap.keys result).Nodup ∧
      ∀ entry ∈ result, entry.2.id = entry.1 ∧ entry.1 ≠ "" ∧ Legible entry.2 := by
  induction plugins generalizing built with
  | nil => exact ⟨distinct, fine⟩
  | cons options rest ih =>
      apply ih (fun other member => legible other (List.mem_cons_of_mem _ member))
        (LinkedMap.nodup_put options distinct)
      intro entry member
      rcases LinkedMap.mem_put member with before | ⟨sameKey, sameValue⟩
      · exact fine entry before
      · obtain ⟨fineHere, named⟩ := legible options List.mem_cons_self
        rw [sameKey, sameValue]
        exact ⟨rfl, named, fineHere⟩

theorem stored_ofPlugins {plugins : List PluginOptions}
    (legible : ∀ options ∈ plugins, Legible options) : Stored (ofPlugins plugins) := by
  have kept : ∀ options ∈ plugins.filter (fun options => options.id ≠ ""),
      Legible options ∧ options.id ≠ "" := by
    intro options member
    obtain ⟨inside, named⟩ := List.mem_filter.mp member
    exact ⟨legible options inside, of_decide_eq_true named⟩
  have empty : (LinkedMap.keys ([] : List (String × PluginOptions))).Nodup := List.nodup_nil
  obtain ⟨distinct, fine⟩ := stored_foldl kept empty (fun _ none => absurd none List.not_mem_nil)
  refine ⟨distinct, fun entry member => (fine entry member).1,
    fun entry member => (fine entry member).2.1, fun entry member => (fine entry member).2.2, ?_⟩
  intro named
  cases plugins with
  | nil => exact absurd rfl named
  | cons first rest =>
      apply (LinkedMap.mem_keys_foldl PluginOptions.id).mpr
      refine Or.inr ⟨first, List.mem_filter.mpr ⟨List.mem_cons_self, ?_⟩, rfl⟩
      exact decide_eq_true named

theorem stored_read {plugin : String} {configuration : PluginConfiguration}
    (accepted : read plugin = .ok configuration) : Stored configuration := by
  rw [read] at accepted
  cases lines : (plugin.toList.splitOn '\n').mapM readLine with
  | error message =>
      rw [lines] at accepted
      cases accepted
  | ok plugins =>
      rw [lines] at accepted
      cases accepted
      apply stored_ofPlugins
      intro options listed
      obtain ⟨line, inside, made⟩ := Machine.exists_of_mem_mapM lines listed
      exact legible_readLine (Text.not_mem_of_mem_splitOn inside) made

/-- The selected plugin of an accepted column. -/
theorem selected_spec {plugin : String} {configuration : PluginConfiguration}
    (accepted : read plugin = .ok configuration) :
    ∃ options, (∀ defaultConfig, configuration.selectedOptions defaultConfig = .ok options) ∧
      options.id = configuration.selected ∧ Legible options := by
  have stored := stored_read accepted
  by_cases unnamed : configuration.selected = ""
  · refine ⟨{}, fun defaultConfig => ?_, unnamed.symm, legible_empty⟩
    exact if_pos unnamed
  · obtain ⟨options, found⟩ := Option.isSome_iff_exists.mp
      (LinkedMap.get_isSome_iff.mpr (stored.selected unnamed))
    have listed := LinkedMap.mem_of_get found
    refine ⟨options, fun defaultConfig => ?_, stored.keyed _ listed, stored.legible _ listed⟩
    rw [selectedOptions, getOptions, if_neg unnamed, found]

/-- A column on one line. -/
theorem read_line {line : Text} (unbroken : '\n' ∉ line) :
    read (String.ofList line) = (readLine line).map (fun options => ofPlugins [options]) := by
  rw [read, String.toList_ofList, List.splitOn_eq_singleton unbroken]
  cases made : readLine line with
  | error message => simp [List.mapM_cons, made, Except.map, Bind.bind, Except.bind]
  | ok options => simp [List.mapM_cons, made, Except.map, Bind.bind, Except.bind, pure, Except.pure]

/-- The configuration of a single plugin. -/
theorem selectedOptions_single (named : options.id ≠ "") :
    (ofPlugins [options]).selectedOptions defaultConfig = .ok options := by
  have kept : [options].filter (fun options => options.id ≠ "") = [options] := by
    simp [named]
  rw [selectedOptions, getOptions, ofPlugins, kept]
  simp [named, LinkedMap.put, LinkedMap.get]

/-! ## Written lines -/

def Restores (defaultConfig : String → Option String) (text : String) (options : PluginOptions) :
    Prop :=
  ∃ copy made, read text = .ok copy ∧ copy.selected = options.id ∧
    copy.selectedOptions defaultConfig = .ok made ∧ made.Equals options

/-- No plugin is read from an empty column. -/
theorem restores_empty (defaultConfig : String → Option String) : Restores defaultConfig "" {} :=
  ⟨_, _, rfl, rfl, rfl, rfl, fun _ => rfl⟩

def SamePlugin (defaultConfig : String → Option String) (first second : Option String) : Prop :=
  ∃ configuration copy options made,
    read (first.getD "") = .ok configuration ∧ read (second.getD "") = .ok copy ∧
    copy.selected = configuration.selected ∧
    configuration.selectedOptions defaultConfig = .ok options ∧
    copy.selectedOptions defaultConfig = .ok made ∧ made.Equals options

section

variable {column : Option String} {configuration : PluginConfiguration}
  (accepted : read (column.getD "") = .ok configuration)
  (selected : configuration.selectedOptions defaultConfig = .ok options)

include accepted selected

/-- The selected options of an accepted column. -/
theorem selected_facts :
    options.id = configuration.selected ∧ Legible options ∧
      (options.id = "" → options = {}) := by
  obtain ⟨made, found, named, legible⟩ := selected_spec accepted
  rw [found] at selected
  cases selected
  refine ⟨named, legible, fun unnamed => ?_⟩
  have empty : configuration.selectedOptions defaultConfig = .ok {} :=
    if_pos (named.symm.trans unnamed)
  rw [found] at empty
  exact Except.ok.inj empty

theorem samePlugin_iff (other : Option String) :
    SamePlugin defaultConfig column other ↔ Restores defaultConfig (other.getD "") options := by
  have named := (selected_facts accepted selected).1
  constructor
  · rintro ⟨same, copy, found, made, sameRead, read, sameName, sameFound, rest⟩
    rw [accepted] at sameRead
    cases sameRead
    rw [selected] at sameFound
    cases sameFound
    exact ⟨copy, made, read, sameName.trans named.symm, rest⟩
  · rintro ⟨copy, made, read, sameName, rest⟩
    exact ⟨configuration, copy, options, made, accepted, read, sameName.trans named, selected, rest⟩

end

variable {order : HashOrder}

theorem legible_walked (walks : Walks order) (legible : Legible options) :
    Legible { options with entries := order options.entries } where
  readable :=
    { id := legible.readable.id
      keys := fun entry member =>
        legible.readable.keys entry ((walks options.entries).mem_iff.mp member)
      values := fun entry member =>
        legible.readable.values entry ((walks options.entries).mem_iff.mp member)
      distinct := distinct_walked walks legible.readable.distinct
      entered := entered_walked walks legible.readable.entered }
  name := legible.name

/-- Equal options are restored alike. -/
theorem restores_congr {text : String} {first second : PluginOptions}
    (same : first.Equals second) :
    Restores defaultConfig text first ↔ Restores defaultConfig text second := by
  constructor
  · rintro ⟨copy, made, accepted, named, selected, sameName, sameEntries⟩
    exact ⟨copy, made, accepted, named.trans same.1, selected, sameName.trans same.1,
      fun key => (sameEntries key).trans (same.2 key)⟩
  · rintro ⟨copy, made, accepted, named, selected, sameName, sameEntries⟩
    exact ⟨copy, made, accepted, named.trans same.1.symm, selected, sameName.trans same.1.symm,
      fun key => (sameEntries key).trans (same.2 key).symm⟩

def line (order : HashOrder) (options : PluginOptions) : Text :=
  appendEntries (append options.id) (order options.entries)

theorem render_eq_line (named : options.id ≠ "") :
    options.render order false = String.ofList (line order options) := by
  rw [render, if_neg Bool.false_ne_true, if_neg]
  · rfl
  · rw [String.isEmpty_iff]
    exact named

theorem unbroken_line (walks : Walks order) (legible : Legible options) :
    '\n' ∉ line order options := by
  intro member
  have marked : (line order options).any (· == '\n') = true :=
    List.any_eq_true.mpr ⟨_, member, beq_self_eq_true _⟩
  rw [line, any_appendEntries rfl rfl rfl, any_append rfl, Bool.or_eq_true] at marked
  rcases marked with inName | inEntries
  · obtain ⟨char, inside, same⟩ := List.any_eq_true.mp inName
    exact legible.readable.id char inside (eq_of_beq same)
  · obtain ⟨entry, walked, same⟩ := List.any_eq_true.mp inEntries
    have listed := (walks options.entries).mem_iff.mp walked
    rcases Bool.or_eq_true_iff.mp same with inKey | inValue
    · obtain ⟨char, inside, same⟩ := List.any_eq_true.mp inKey
      exact legible.readable.keys entry listed char inside (eq_of_beq same)
    · obtain ⟨text, given, inText⟩ := (Option.any_eq_true _ _).mp inValue
      obtain ⟨char, inside, same⟩ := List.any_eq_true.mp inText
      exact legible.readable.values entry listed text given char inside (eq_of_beq same)

/-- A text without delimiters begins an escaped text exactly if it begins the text. -/
theorem prefix_escaped_iff {start : Text} (plain : ∀ char ∈ start, isDelimiter char = false)
    (chars rest : Text) :
    start <+: chars.flatMap (fun char => if isDelimiter char then ['\\', char] else [char]) ++
      ';' :: rest ↔ start <+: chars := by
  induction start generalizing chars with
  | nil => simp
  | cons first start ih =>
      have text := plain first List.mem_cons_self
      have later : ∀ char ∈ start, isDelimiter char = false :=
        fun char member => plain char (List.mem_cons_of_mem _ member)
      cases chars with
      | nil =>
          rw [List.flatMap_nil, List.nil_append, List.cons_prefix_cons]
          constructor
          · rintro ⟨rfl, _⟩
            cases text
          · intro none
            cases List.prefix_nil.mp none
      | cons char chars =>
          rw [List.flatMap_cons, List.append_assoc]
          split
          next delimiter =>
            rw [List.cons_append, List.cons_prefix_cons, List.cons_prefix_cons]
            constructor
            · rintro ⟨rfl, _⟩
              cases text
            · rintro ⟨rfl, _⟩
              rw [text] at delimiter
              cases delimiter
          next =>
            rw [List.singleton_append, List.cons_prefix_cons, List.cons_prefix_cons, ih later]

/-- The line passes for a command line of an old version if the name begins like one. -/
theorem legacy_line_iff (named : options.id ≠ "") :
    legacyStart <+: line order options ↔ legacyStart <+: options.id.toList := by
  have all : legacyStart.all (fun char => !isDelimiter char) = true := rfl
  have plain : ∀ char ∈ legacyStart, isDelimiter char = false := fun char member =>
    (Bool.not_eq_true' _).mp (List.all_eq_true.mp all char member)
  have ended := appendEntries_eq (append_ne_nil named) (order options.entries)
  rw [← prefix_escaped_iff plain options.id.toList, ← append, ← ended]
  constructor
  · exact fun start => start.trans (List.prefix_append _ _)
  · intro start
    rcases List.prefix_concat_iff.mp start with whole | inside
    · have last : ';' ∈ legacyStart := by
        rw [whole]
        exact List.mem_append_right _ List.mem_cons_self
      exact absurd last (by decide)
    · exact inside

/-- What a line is read as, if it is accepted. -/
theorem read_line_cases {text : Text} (unbroken : '\n' ∉ text) {copy : PluginConfiguration}
    (accepted : read (String.ofList text) = .ok copy) :
    ∃ made, readLine text = .ok made ∧ copy.selected = made.id ∧
      (made.id ≠ "" → ∀ defaultConfig, copy.selectedOptions defaultConfig = .ok made) := by
  rw [read_line unbroken] at accepted
  cases made : readLine text with
  | error message =>
      rw [made] at accepted
      cases accepted
  | ok options =>
      rw [made] at accepted
      cases accepted
      exact ⟨options, rfl, rfl, fun named _ => selectedOptions_single named⟩

theorem not_restores_legacy {text : Text} (unbroken : '\n' ∉ text)
    (legacy : legacyStart <+: text) (begins : legacyStart <+: options.id.toList) :
    ¬ Restores defaultConfig (String.ofList text) options := by
  rintro ⟨copy, made, accepted, selected, _⟩
  obtain ⟨other, read, named, _⟩ := read_line_cases unbroken accepted
  obtain ⟨kcptun, readLegacy, kcptunNamed, _⟩ :=
    readLine_legacy (List.isPrefixOf_iff_prefix.mpr legacy)
  rw [read] at readLegacy
  cases readLegacy
  rw [← selected, named, kcptunNamed] at begins
  exact absurd begins (by decide)

inductive LineRead (order : HashOrder) (options : PluginOptions) :
    Except String PluginOptions → Prop
  | command {made : PluginOptions} (begins : legacyStart <+: options.id.toList)
      (named : made.id = "kcptun") : LineRead order options (.ok made)
  | refused {message : String} (modern : ¬ legacyStart <+: options.id.toList)
      (control : options.entries.any entryHasControl = true) :
      LineRead order options (.error message)
  | restored (modern : ¬ legacyStart <+: options.id.toList)
      (clean : options.entries.any entryHasControl = false) :
      LineRead order options (.ok { options with entries := order options.entries })

theorem lineRead_readLine (walks : Walks order) (legible : Legible options)
    (named : options.id ≠ "") : LineRead order options (readLine (line order options)) := by
  by_cases legacy : legacyStart <+: options.id.toList
  · have begins : legacyStart.isPrefixOf (line order options) = true :=
      List.isPrefixOf_iff_prefix.mpr ((legacy_line_iff named).mpr legacy)
    obtain ⟨made, read, kcptun, _⟩ := readLine_legacy begins
    rw [read]
    exact .command legacy kcptun
  · have modern : ¬ legacyStart.isPrefixOf (line order options) = true := by
      rw [List.isPrefixOf_iff_prefix, legacy_line_iff named]
      exact legacy
    rw [readLine, if_neg modern]
    cases clean : options.entries.any entryHasControl with
    | true =>
        have marked : (line order options).any isISOControl = true := by
          rw [line, any_control, any_walked walks, clean, Bool.or_true]
        have nonempty : line order options ≠ [] := appendEntries_ne_nil (append_ne_nil named) _
        have refused : PluginOptions.read (some (String.ofList (line order options))) true =
            .error "No control characters allowed." := by
          simp [PluginOptions.read, nonempty, marked]
        rw [refused]
        exact .refused legacy clean
    | false =>
        rw [← render_eq_line named, read_render_named walks legible.readable.distinct named
          legible.name clean legible.readable.entered]
        exact .restored legacy clean

/-- The options of a selected plugin are read back from their line exactly if they have
no control characters and the name does not begin like a command line of old versions. -/
theorem restores_iff (walks : Walks order) (legible : Legible options)
    (named : options.id ≠ "") :
    Restores defaultConfig (options.render order false) options ↔
      options.entries.any entryHasControl = false ∧ ¬ legacyStart <+: options.id.toList := by
  have unbroken := unbroken_line walks legible
  have lineRead := lineRead_readLine walks legible named
  rw [render_eq_line named]
  cases made : readLine (line order options) with
  | error message =>
      rw [made] at lineRead
      cases lineRead with
      | refused modern control =>
          refine iff_of_false ?_ (fun both => absurd both.1 (by rw [control]; exact nofun))
          rintro ⟨copy, found, accepted, _⟩
          obtain ⟨other, read, _⟩ := read_line_cases unbroken accepted
          rw [made] at read
          cases read
  | ok other =>
      rw [made] at lineRead
      cases lineRead with
      | command begins kcptun =>
          refine iff_of_false ?_ (fun both => both.2 begins)
          exact not_restores_legacy unbroken ((legacy_line_iff named).mpr begins) begins
      | restored modern clean =>
          refine iff_of_true ?_ ⟨clean, modern⟩
          refine ⟨_, _, ?_, ?_, selectedOptions_single ?_, equals_walked walks
            legible.readable.distinct⟩
          · rw [read_line unbroken, made]
            rfl
          · rfl
          · exact named

/-! ## Lines that have lost their end -/

theorem append_concat (chars : Text) (char : Char) :
    append (String.ofList (chars ++ [char])) =
      append (String.ofList chars) ++ (if isDelimiter char then ['\\', char] else [char]) := by
  simp [append]

/-- A run of text at the end of an escaped text is one of the text itself. -/
theorem append_eq_of_plain {chars front run : Text}
    (plain : ∀ char ∈ run, isDelimiter char = false)
    (split : append (String.ofList chars) = front ++ run) :
    ∃ text, chars = text ++ run ∧ front = append (String.ofList text) := by
  induction run using List.reverseRecOn generalizing chars with
  | nil => exact ⟨chars, (List.append_nil _).symm, by rw [split, List.append_nil]⟩
  | append_singleton run last ih =>
      rcases List.eq_nil_or_concat' chars with rfl | ⟨chars, char, rfl⟩
      · simp [append] at split
      · have text := plain last (by simp)
        rw [append_concat, ← List.append_assoc] at split
        split at split
        next delimiter =>
          have same : append (String.ofList chars) ++ ['\\'] ++ [char] =
              front ++ run ++ [last] := by
            rw [← split, List.append_assoc]
            rfl
          cases (List.append_inj' same rfl).2
          rw [text] at delimiter
          cases delimiter
        next =>
          obtain ⟨fronts, lasts⟩ := List.append_inj' split rfl
          cases lasts
          obtain ⟨text, whole, same⟩ := ih (fun char member => plain char (by simp [member])) fronts
          exact ⟨text, by rw [whole, List.append_assoc], same⟩

/-- Such a run does not reach back over a delimiter. -/
theorem eq_append_of_plain {front run before behind : Text} {delimiter : Char}
    (marks : isDelimiter delimiter = true) (plain : ∀ char ∈ run, isDelimiter char = false)
    (split : before ++ delimiter :: behind = front ++ run) :
    ∃ middle, behind = middle ++ run ∧ front = before ++ delimiter :: middle := by
  have outside : delimiter ∉ run := by
    intro member
    rw [plain delimiter member] at marks
    cases marks
  rcases List.append_eq_append_iff.mp split with ⟨middle, same, tail⟩ | ⟨middle, same, tail⟩
  · cases middle with
    | nil =>
        rw [List.nil_append] at tail
        exact absurd (tail ▸ List.mem_cons_self) outside
    | cons first middle =>
        obtain ⟨rfl, rest⟩ := List.cons.inj tail
        exact ⟨middle, rest, same⟩
  · exact absurd (tail ▸ List.mem_append_right _ List.mem_cons_self) outside

/-- What a line with a name that is no command line is read as. -/
theorem eq_readChars {text : Text} {made : PluginOptions} (modern : ¬ legacyStart <+: text)
    (accepted : readLine text = .ok made) (named : made.id ≠ "") :
    made = (readChars (text ++ [';']) { parseId := true }).options := by
  rw [readLine, if_neg (fun legacy => modern (List.isPrefixOf_iff_prefix.mp legacy))] at accepted
  by_cases empty : text = []
  · rw [empty] at accepted
    cases accepted
    exact absurd rfl named
  · cases control : text.any isISOControl with
    | true =>
        rw [PluginOptions.read] at accepted
        simp [empty, control] at accepted
    | false =>
        rw [read_of_clean control empty] at accepted
        exact (Except.ok.inj accepted).symm

/-- Where the end that is lost was: in the name, in a key, or in a value. -/
theorem cut_cases (named : options.id ≠ "") {front run : Text}
    (plain : ∀ char ∈ run, isDelimiter char = false)
    (split : line order options = front ++ run) :
    (∃ text, options.id.toList = text ++ run ∧ front = append (String.ofList text)) ∨
    (∃ before key text, order options.entries = before ++ [(key, none)] ∧
      key.toList = text ++ run ∧
      front = appendEntries (append options.id) before ++ ';' :: append (String.ofList text)) ∨
    (∃ before key value text, order options.entries = before ++ [(key, some value)] ∧
      value.toList = text ++ run ∧
      front = appendEntries (append options.id) before ++
        ';' :: field (key, some (String.ofList text))) := by
  rw [line] at split
  rcases List.eq_nil_or_concat' (order options.entries) with none | ⟨before, ⟨key, value⟩, last⟩
  · rw [none, appendEntries, ← String.ofList_toList (s := options.id)] at split
    exact Or.inl (append_eq_of_plain plain split)
  · rw [last, appendEntries_concat (append_ne_nil named)] at split
    obtain ⟨middle, whole, same⟩ := eq_append_of_plain rfl plain split
    cases value with
    | none =>
        rw [field, List.append_nil, ← String.ofList_toList (s := key)] at whole
        obtain ⟨text, cut, rfl⟩ := append_eq_of_plain plain whole
        exact Or.inr (Or.inl ⟨before, key, text, last, cut, same⟩)
    | some value =>
        obtain ⟨inner, tail, rfl⟩ := eq_append_of_plain rfl plain whole
        rw [← String.ofList_toList (s := value)] at tail
        obtain ⟨text, cut, rfl⟩ := append_eq_of_plain plain tail
        exact Or.inr (Or.inr ⟨before, key, value, text, last, cut, same⟩)

/-- The entry that stood last is not among those before it. -/
theorem last_entry (walks : Walks order) (legible : Legible options)
    {before : List (String × Option String)} {key : String} {value : Option String}
    (last : order options.entries = before ++ [(key, value)]) :
    LinkedMap.get key options.entries = some value ∧ ("", none) ∉ before ∧
      LinkedMap.get key (before.foldl
        (fun built entry => LinkedMap.put entry.1 entry.2 built) []) = none := by
  have distinct := legible.readable.distinct
  have walked := distinct_walked walks distinct
  refine ⟨?_, ?_, ?_⟩
  · apply (LinkedMap.get_eq_some_iff distinct).mpr
    apply (walks options.entries).mem_iff.mp
    rw [last]
    exact List.mem_append_right _ List.mem_cons_self
  · intro member
    apply entered_walked walks legible.readable.entered
    rw [last]
    exact List.mem_append_left _ member
  · rw [last, LinkedMap.keys, List.map_append, List.nodup_append] at walked
    apply LinkedMap.get_foldl_of_not_mem
    exact fun member => walked.2.2 _ member _ List.mem_cons_self rfl

/-- A line that has lost a run of text at its end is not read as the same selection. -/
theorem not_restores_cut (walks : Walks order) (legible : Legible options)
    (named : options.id ≠ "") {front run : Text} (split : line order options = front ++ run)
    (lost : run ≠ []) (plain : ∀ char ∈ run, isDelimiter char = false) :
    ¬ Restores defaultConfig (String.ofList front) options := by
  have unbroken : '\n' ∉ front := by
    intro member
    apply unbroken_line walks legible
    rw [split]
    exact List.mem_append_left _ member
  have shorter : ∀ text : Text, text ≠ text ++ run := fun text same =>
    lost (List.append_right_eq_self.mp same.symm)
  by_cases legacy : legacyStart <+: front
  · apply not_restores_legacy unbroken legacy
    rw [← legacy_line_iff named, split]
    exact legacy.trans (List.prefix_append _ _)
  rintro ⟨copy, made, accepted, selected, found, equals⟩
  obtain ⟨other, read, otherSelected, single⟩ := read_line_cases unbroken accepted
  have otherNamed : other.id ≠ "" := by
    rw [← otherSelected, selected]
    exact named
  cases (single otherNamed defaultConfig).symm.trans found
  have chars := eq_readChars legacy read otherNamed
  rcases cut_cases named plain split with ⟨text, whole, rfl⟩ |
    ⟨before, key, text, last, whole, rfl⟩ | ⟨before, key, value, text, last, whole, rfl⟩
  · -- the name is shorter
    rw [readChars_append, String.toList_ofList] at chars
    have shown := equals.1
    rw [chars] at shown otherNamed
    by_cases empty : text = []
    · rw [empty] at otherNamed
      exact otherNamed rfl
    · have made : (readChars [';'] (({ parseId := true } : Reader).append text)).options =
          { id := String.ofList text } := by
        simp [readChars, Reader.plain, Reader.append, Reader.endOption, empty]
      rw [made] at shown
      rw [← shown, String.toList_ofList] at whole
      exact shorter text whole
  · -- the last key is missing
    obtain ⟨given, entered, absent⟩ := last_entry walks legible last
    rw [List.append_assoc, List.cons_append, readChars_line named entered] at chars
    have shown := (equals.2 key).trans given
    by_cases empty : text = []
    · have nothing : append (String.ofList []) = [] := by simp [append]
      rw [chars, empty, nothing] at shown
      cases absent.symm.trans shown
    · have enteredText : (String.ofList text, (none : Option String)) ≠ ("", none) := by
        simpa using empty
      have differs : key ≠ String.ofList text := by
        rintro rfl
        rw [String.toList_ofList] at whole
        exact shorter text whole
      have read := readChars_field enteredText
        { id := options.id
          entries := before.foldl (fun built entry => LinkedMap.put entry.1 entry.2 built) [] } []
      rw [field, List.append_nil] at read
      rw [chars, read] at shown
      cases ((LinkedMap.get_put_other differs none _).trans absent).symm.trans shown
  · -- the last value is shorter
    obtain ⟨given, entered, _⟩ := last_entry walks legible last
    have enteredText : (key, some (String.ofList text)) ≠ ("", none) := by simp
    rw [List.append_assoc, List.cons_append, readChars_line named entered,
      readChars_field enteredText] at chars
    have shown := (equals.2 key).trans given
    rw [chars] at shown
    cases (LinkedMap.get_put_self key (some (String.ofList text)) _).symm.trans shown
    rw [String.toList_ofList] at whole
    exact shorter text whole

end PluginConfiguration

end AlienConnection.Plugin
