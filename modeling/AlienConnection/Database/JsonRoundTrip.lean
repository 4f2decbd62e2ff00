import AlienConnection.Database.ExportParsing
import AlienConnection.Database.ProfileImport
import Mathlib.Tactic.Choose

/-!
# Importing an export

An exported list is imported in place of the profiles of the table. What the parser makes
of the whole document follows from what it makes of its objects; which lists come back
unchanged is then settled by passwords, plugin columns, and profiles that look alike.
-/

namespace AlienConnection.Database

open Library Plugin

/-! ## The round trip -/

/-- A row with everything that is to come back. The apps only matter where they are used. -/
structure SameProfile (defaultConfig : String → Option String) (profile row : Profile) : Prop where
  host : row.host = profile.host
  remotePort : row.remotePort = profile.remotePort
  password : row.password = profile.password
  method : row.method = profile.method
  plugin : PluginConfiguration.SamePlugin defaultConfig profile.plugin row.plugin
  name : row.name = profile.name
  route : row.route = profile.route
  remoteDns : row.remoteDns = profile.remoteDns
  ipv6 : row.ipv6 = profile.ipv6
  metered : row.metered = profile.metered
  proxyApps : row.proxyApps = profile.proxyApps
  udpdns : row.udpdns = profile.udpdns
  apps : profile.proxyApps = true →
    row.bypass = profile.bypass ∧ row.individual = profile.individual

def Linked (rows : List Profile) (row fallback : Profile) : Prop :=
  ∃ target ∈ rows, row.udpFallback = some target.id ∧ target.host = fallback.host ∧
    target.remotePort = fallback.remotePort ∧ target.password = fallback.password ∧
    target.method = fallback.method

/-- One row for each exported profile, in their order, which is also the user's. -/
structure Matches (defaultConfig : String → Option String) (profiles rows : List Profile) :
    Prop where
  length : rows.length = profiles.length
  ordered : rows.Pairwise (fun first second => first.userOrder < second.userOrder)
  same : ∀ (index : Nat) (profile row : Profile), profiles[index]? = some profile →
    rows[index]? = some row → SameProfile defaultConfig profile row
  linked : ∀ (index : Nat) (profile row fallback : Profile), profiles[index]? = some profile →
    rows[index]? = some row →
    profile.exportedFallback (ProfileManager.lookup profiles) = some fallback →
    Linked rows row fallback

/-- The profiles are exported, the document is imported without an exception, and the
table then holds them. -/
def Reimports (runtime : Runtime) (defaultConfig : String → Option String) (profileId : Int)
    (current : Option Profile) (table : ProfileTable) (profiles : List Profile) : Prop :=
  ∃ json result, ProfileManager.serializeToJson runtime defaultConfig profiles = .ok json ∧
    ProfileManager.createProfilesFromJson runtime true profileId current table [some json] =
      (result, true) ∧ Matches defaultConfig profiles result.rows

structure Twins (order : HashOrder) (defaultConfig : String → Option String)
    (first second : Profile) : Prop where
  host : first.host = second.host
  remotePort : first.remotePort = second.remotePort
  password : first.password = second.password
  method : first.method = second.method
  plugin : (first.pluginOptions defaultConfig).map (JsonParser.storedPlugin order) =
    (second.pluginOptions defaultConfig).map (JsonParser.storedPlugin order)
  name : first.name = second.name
  route : first.route = second.route
  remoteDns : first.remoteDns = second.remoteDns
  ipv6 : first.ipv6 = second.ipv6
  metered : first.metered = second.metered
  proxyApps : first.proxyApps = second.proxyApps
  udpdns : first.udpdns = second.udpdns
  apps : first.proxyApps = true →
    first.bypass = second.bypass ∧ first.individual = second.individual

def Distinguished (order : HashOrder) (defaultConfig : String → Option String)
    (profiles : List Profile) : Prop :=
  ∀ (earlier later : Nat) (first second : Profile), earlier < later →
    profiles[earlier]? = some first → profiles[later]? = some second →
    second.exportedFallback (ProfileManager.lookup profiles) ≠ none →
    ¬ Twins order defaultConfig first second

/-- A list that replaces the table and comes back: passwords are set, no selected plugin
has control characters in its options or a name that passes for a command line of an old
version, and no profile with a fallback looks like an earlier one. -/
structure Carries (runtime : Runtime) (defaultConfig : String → Option String)
    (profiles : List Profile) : Prop where
  nonempty : profiles ≠ []
  passwords : ∀ profile ∈ profiles, profile.password ≠ ""
  plugins : ∀ profile ∈ profiles, ∃ options, profile.pluginOptions defaultConfig = .ok options ∧
    options.entries.any PluginOptions.entryHasControl = false ∧
    ¬ PluginConfiguration.legacyStart <+: options.id.toList
  links : Distinguished runtime.hashOrder defaultConfig profiles

/-! ### Exports -/

section

variable {runtime : Runtime} {defaultConfig : String → Option String} {profiles : List Profile}

/-- A fallback is one of the exported profiles and has no plugin. -/
theorem exportedFallback_spec {profile fallback : Profile}
    (found : profile.exportedFallback (ProfileManager.lookup profiles) = some fallback) :
    fallback ∈ profiles ∧ fallback.plugin.getD "" = "" := by
  rw [Profile.exportedFallback, Option.filter_eq_some_iff] at found
  obtain ⟨id, _, here⟩ := Option.bind_eq_some_iff.mp found.1
  refine ⟨List.mem_reverse.mp (List.mem_of_find?_eq_some here), ?_⟩
  exact String.isEmpty_iff.mp found.2

theorem accepted_of_serializeToJson {json : Json}
    (exported : ProfileManager.serializeToJson runtime defaultConfig profiles = .ok json)
    {profile : Profile} (listed : profile ∈ profiles) :
    ∃ options, profile.pluginOptions defaultConfig = .ok options := by
  rw [ProfileManager.serializeToJson] at exported
  cases written : profiles.mapM
      (Profile.toJson runtime defaultConfig (ProfileManager.lookup profiles)) with
  | error message =>
      rw [written] at exported
      cases exported
  | ok items =>
      obtain ⟨item, made⟩ := Machine.ok_of_mem_mapM written listed
      rw [Profile.toJson] at made
      cases given : profile.pluginOptions defaultConfig with
      | error message =>
          rw [given] at made
          cases made
      | ok options => exact ⟨options, rfl⟩

/-- What is known of the options of an accepted column. -/
theorem pluginOptions_spec {profile : Profile} {options : PluginOptions}
    (accepted : profile.pluginOptions defaultConfig = .ok options) :
    PluginConfiguration.Legible options ∧ (options.id = "" → options = {}) ∧
      ∀ other, PluginConfiguration.SamePlugin defaultConfig profile.plugin other ↔
        PluginConfiguration.Restores defaultConfig (other.getD "") options := by
  rw [Profile.pluginOptions] at accepted
  cases read : PluginConfiguration.read (profile.plugin.getD "") with
  | error message =>
      rw [read] at accepted
      cases accepted
  | ok configuration =>
      rw [read] at accepted
      obtain ⟨_, legible, unnamed⟩ := PluginConfiguration.selected_facts read accepted
      exact ⟨legible, unnamed, PluginConfiguration.samePlugin_iff read accepted⟩

/-- A column without a plugin. -/
theorem pluginOptions_empty {profile : Profile} (empty : profile.plugin.getD "" = "") :
    profile.pluginOptions defaultConfig = .ok {} := by
  rw [Profile.pluginOptions, empty]
  rfl

theorem Matches.accepted {rows : List Profile} (matched : Matches defaultConfig profiles rows)
    {profile : Profile} (listed : profile ∈ profiles) :
    ∃ options, profile.pluginOptions defaultConfig = .ok options := by
  obtain ⟨index, inside⟩ := List.mem_iff_getElem?.mp listed
  obtain ⟨row, here⟩ := Rows.exists_getElem? matched.length inside
  obtain ⟨configuration, _, options, _, read, _, _, selected, _⟩ :=
    (matched.same index profile row inside here).plugin
  refine ⟨options, ?_⟩
  rw [Profile.pluginOptions, read]
  exact selected

/-! ### Copies -/

/-- The plugin comes back unless its name passes for a command line. -/
theorem samePlugin_storedPlugin_iff {order : HashOrder} (walks : PluginOptions.Walks order)
    {profile : Profile} {options : PluginOptions}
    (accepted : profile.pluginOptions defaultConfig = .ok options)
    (clean : options.entries.any PluginOptions.entryHasControl = false) :
    PluginConfiguration.SamePlugin defaultConfig profile.plugin
        (JsonParser.storedPlugin order options) ↔
      ¬ PluginConfiguration.legacyStart <+: options.id.toList := by
  obtain ⟨legible, unnamed, same⟩ := pluginOptions_spec accepted
  rw [same, JsonParser.storedPlugin]
  by_cases empty : options.id = ""
  · rw [if_pos empty, unnamed empty]
    exact iff_of_true (PluginConfiguration.restores_empty defaultConfig) (by decide)
  · have walked := PluginOptions.equals_walked walks legible.readable.distinct
    rw [if_neg empty, Option.getD_some, ← PluginConfiguration.restores_congr walked,
      PluginConfiguration.restores_iff walks (PluginConfiguration.legible_walked walks legible) empty]
    exact and_iff_right ((PluginOptions.any_walked walks).trans clean)

/-- Everything but the plugin comes back in any case. -/
theorem sameProfile_iff {order : HashOrder} {feature : Option Profile} {profile row : Profile}
    {options : PluginOptions}
    (imports : ImportState.Imports (JsonParser.copy order feature options profile) row) :
    SameProfile defaultConfig profile row ↔
      PluginConfiguration.SamePlugin defaultConfig profile.plugin
        (JsonParser.storedPlugin order options) := by
  obtain ⟨id, fallback, tx, rx, place, rfl⟩ : ∃ id fallback tx rx place, row =
      { JsonParser.copy order feature options profile with
        id := id, udpFallback := fallback, tx := tx, rx := rx, userOrder := place } :=
    ⟨_, _, _, _, _, imports⟩
  constructor
  · exact fun same => same.plugin
  · intro plugin
    cases feature with
    | none => exact ⟨rfl, rfl, rfl, rfl, plugin, rfl, rfl, rfl, rfl, rfl, rfl, rfl,
        fun apps => ⟨if_pos apps, if_pos apps⟩⟩
    | some feature => exact ⟨rfl, rfl, rfl, rfl, plugin, rfl, rfl, rfl, rfl, rfl, rfl, rfl,
        fun apps => ⟨if_pos apps, if_pos apps⟩⟩

/-- Copies are equal exactly if nothing exported tells the profiles apart. -/
theorem copy_eq_iff {order : HashOrder} (feature : Option Profile) {first second : Profile}
    {firstOptions secondOptions : PluginOptions}
    (firstAccepted : first.pluginOptions defaultConfig = .ok firstOptions)
    (secondAccepted : second.pluginOptions defaultConfig = .ok secondOptions) :
    JsonParser.copy order feature firstOptions first =
        JsonParser.copy order feature secondOptions second ↔
      Twins order defaultConfig first second := by
  have plugins : (first.pluginOptions defaultConfig).map (JsonParser.storedPlugin order) =
        (second.pluginOptions defaultConfig).map (JsonParser.storedPlugin order) ↔
      JsonParser.storedPlugin order firstOptions = JsonParser.storedPlugin order secondOptions := by
    rw [firstAccepted, secondAccepted]
    exact ⟨Except.ok.inj, congrArg Except.ok⟩
  constructor
  · intro same
    have column {α : Type} (f : Profile → α) := congrArg f same
    have bypass := column Profile.bypass
    have individual := column Profile.individual
    have proxyApps : first.proxyApps = second.proxyApps := (column Profile.proxyApps :)
    refine ⟨?_, ?_, ?_, ?_, plugins.mpr (column Profile.plugin :), (column Profile.name :),
      (column Profile.route :), (column Profile.remoteDns :), (column Profile.ipv6 :),
      (column Profile.metered :), proxyApps, (column Profile.udpdns :), fun apps => ?_⟩
    · cases feature <;> exact (column Profile.host :)
    · cases feature <;> exact (column Profile.remotePort :)
    · cases feature <;> exact (column Profile.password :)
    · cases feature <;> exact (column Profile.method :)
    · simp only [JsonParser.copy, ← proxyApps, apps, if_true] at bypass individual
      exact ⟨bypass, individual⟩
  · rintro ⟨host, remotePort, password, method, plugin, name, route, remoteDns, ipv6, metered,
      proxyApps, udpdns, apps⟩
    have server : JsonParser.inherit feature first = JsonParser.inherit feature second := by
      simp only [JsonParser.inherit, JsonParser.serverOf, host, remotePort, password, method]
    simp only [JsonParser.copy, server, plugins.mp plugin, name, route, remoteDns, ipv6, metered,
      ← proxyApps, udpdns]
    cases used : first.proxyApps with
    | false => rfl
    | true =>
        obtain ⟨bypass, individual⟩ := apps used
        simp only [bypass, individual]

end

/-! ### Imports -/

section

def exportedObject (order : HashOrder) (profiles : List Profile)
    (options : Profile → PluginOptions) (profile : Profile) : Json :=
  .object (profile.members order (ProfileManager.lookup profiles) (options profile))

def copyOf (order : HashOrder) (feature : Option Profile) (options : Profile → PluginOptions)
    (profile : Profile) : Profile :=
  JsonParser.copy order feature (options profile) profile

def pairOf (order : HashOrder) (feature : Option Profile) (profiles : List Profile)
    (options : Profile → PluginOptions) (profile : Profile) : Profile × Option Profile :=
  (copyOf order feature options profile,
    (profile.exportedFallback (ProfileManager.lookup profiles)).bind
      (JsonParser.serverCopy feature))

/-- The rows after an import that has replaced the table by copies of the profiles. -/
structure Replaced (order : HashOrder) (feature : Option Profile) (profiles : List Profile)
    (options : Profile → PluginOptions) (rows : List Profile) : Prop where
  ordered : rows.Pairwise (fun first second => first.userOrder < second.userOrder)
  length : rows.length = profiles.length
  each : ∀ (index : Nat) (profile row : Profile), profiles[index]? = some profile →
    rows[index]? = some row →
    ImportState.Imports (copyOf order feature options profile) row ∧
    ImportState.Resolved rows row
      (if copyOf order feature options profile ∈
          (profiles.take index).map (copyOf order feature options) then none
        else LinkedMap.get (.parsed (copyOf order feature options profile))
          (JsonParser.collect (profiles.map (pairOf order feature profiles options)) {}).fallbackMap)

variable {runtime : Runtime} {defaultConfig : String → Option String} {profiles : List Profile}
  {options : Profile → PluginOptions} {profileId : Int} {current : Option Profile}
  {table : ProfileTable}
  (accepted : ∀ profile ∈ profiles, profile.pluginOptions defaultConfig = .ok (options profile))

include accepted

theorem serializeToJson_eq :
    ProfileManager.serializeToJson runtime defaultConfig profiles =
      .ok (.array (profiles.map (exportedObject runtime.hashOrder profiles options))) := by
  have written : profiles.mapM
      (Profile.toJson runtime defaultConfig (ProfileManager.lookup profiles)) =
        .ok (profiles.map (exportedObject runtime.hashOrder profiles options)) := by
    rw [Machine.mapM_eq_ok_iff, List.forall₂_map_right_iff, List.forall₂_same]
    intro profile listed
    rw [Profile.toJson, accepted profile listed]
    rfl
  rw [ProfileManager.serializeToJson, written]
  rfl

theorem reimports_iff_parsed :
    Reimports runtime defaultConfig profileId current table profiles ↔
      ∃ result, JsonParser.parseJson (ImportState.sink (some (ProfileManager.byAddress table)))
          runtime (ProfileManager.selectedRow (ProfileManager.byAddress table) profileId)
          (.array (profiles.map (exportedObject runtime.hashOrder profiles options)))
          { table := table } = (result, true) ∧
        Matches defaultConfig profiles result.table.rows := by
  have exported : ProfileManager.serializeToJson runtime defaultConfig profiles = _ :=
    serializeToJson_eq accepted
  constructor
  · rintro ⟨json, result, written, imported, matched⟩
    rw [exported] at written
    cases written
    obtain ⟨rows, done⟩ := Prod.ext_iff.mp imported
    refine ⟨_, Prod.ext rfl done, ?_⟩
    cases rows
    exact matched
  · rintro ⟨result, parsed, matched⟩
    refine ⟨_, result.table, exported, ?_, matched⟩
    simp only [ProfileManager.createProfilesFromJson, if_true, List.foldl_cons, List.foldl_nil,
      ImportState.absorb, parsed, Bool.and_true]

/-- The fallback of a profile that does not look like an earlier one is kept. -/
theorem get_pairOf {order : HashOrder} (links : Distinguished order defaultConfig profiles)
    (feature : Option Profile) {index : Nat} {profile fallback copy : Profile}
    (listed : profiles[index]? = some profile)
    (exported : profile.exportedFallback (ProfileManager.lookup profiles) = some fallback)
    (made : JsonParser.serverCopy feature fallback = some copy) :
    LinkedMap.get (.parsed (copyOf order feature options profile))
      (JsonParser.collect (profiles.map
        (pairOf order feature profiles options)) {}).fallbackMap = some copy := by
  obtain ⟨bound, here⟩ := List.getElem?_eq_some_iff.mp listed
  have pair : pairOf order feature profiles options profile =
      (copyOf order feature options profile, some copy) := by
    rw [pairOf, exported, Option.bind_some, made]
  have whole : profiles.map (pairOf order feature profiles options) =
      (profiles.take index).map (pairOf order feature profiles options) ++
        (copyOf order feature options profile, some copy) ::
          (profiles.drop (index + 1)).map (pairOf order feature profiles options) := by
    rw [← pair, ← here, ← List.map_cons, ← List.drop_eq_getElem_cons bound, ← List.map_append,
      List.take_append_drop]
  rw [whole]
  apply JsonParser.get_collect
  intro found member same
  obtain ⟨other, later, rfl⟩ := List.mem_map.mp member
  obtain ⟨offset, there⟩ := List.mem_iff_getElem?.mp later
  rw [List.getElem?_drop] at there
  rw [pairOf]
  cases given : other.exportedFallback (ProfileManager.lookup profiles) with
  | none => rfl
  | some other =>
      refine absurd ?_ (links index _ profile _ (by omega) listed there ?_)
      · exact (copy_eq_iff feature (accepted _ (List.mem_of_getElem? listed))
          (accepted _ (List.mem_of_getElem? there))).mp same.symm
      · rw [given]
        exact Option.some_ne_none _

/-- The copy of a fallback stands for the copy of an exported profile. -/
theorem exists_copy_of_fallback {order : HashOrder} {feature : Option Profile} {copy : Profile}
    (member : copy ∈ (JsonParser.collect (profiles.map
      (pairOf order feature profiles options)) {}).fallbackMap.map Prod.snd) :
    ∃ profile ∈ profiles.map (copyOf order feature options),
      copy.fallbackMatches profile = true := by
  rcases JsonParser.mem_fallbacks_collect member with none | ⟨pair, inside, given⟩
  · cases none
  · obtain ⟨profile, listed, rfl⟩ := List.mem_map.mp inside
    obtain ⟨fallback, exported, made⟩ := Option.bind_eq_some_iff.mp given
    obtain ⟨fallbackListed, unplugged⟩ := exportedFallback_spec exported
    refine ⟨copyOf order feature options fallback, List.mem_map_of_mem fallbackListed, ?_⟩
    have plain := (accepted fallback fallbackListed).symm.trans (pluginOptions_empty unplugged)
    rw [JsonParser.fallbackMatches_serverCopy made, copyOf, Except.ok.inj plain]
    cases feature <;> exact ⟨rfl, rfl, rfl, rfl, rfl⟩

namespace Replaced

variable {order : HashOrder} {feature : Option Profile} {rows : List Profile}
  (replaced : Replaced order feature profiles options rows)

include replaced

/-- A profile that looks like an earlier one is not linked. -/
theorem unlinked {earlier later : Nat} {first second row : Profile} (before : earlier < later)
    (firstListed : profiles[earlier]? = some first)
    (secondListed : profiles[later]? = some second) (inside : rows[later]? = some row)
    (twins : Twins order defaultConfig first second) : row.udpFallback = none := by
  have resolved := (replaced.each later second row secondListed inside).2
  rw [if_pos] at resolved
  · exact resolved
  · refine List.mem_map.mpr ⟨first, ?_, ?_⟩
    · apply List.mem_of_getElem?
      rw [List.getElem?_take_of_lt before]
      exact firstListed
    · exact (copy_eq_iff feature (accepted first (List.mem_of_getElem? firstListed))
        (accepted second (List.mem_of_getElem? secondListed))).mpr twins

/-- A profile that does not look like an earlier one is linked to its fallback. -/
theorem linked (links : Distinguished order defaultConfig profiles)
    (filled : ∀ profile ∈ profiles, profile.password ≠ "") {index : Nat}
    {profile row fallback : Profile} (listed : profiles[index]? = some profile)
    (inside : rows[index]? = some row)
    (exported : profile.exportedFallback (ProfileManager.lookup profiles) = some fallback) :
    Linked rows row fallback := by
  have resolved := (replaced.each index profile row listed inside).2
  obtain ⟨copy, made⟩ : ∃ copy, JsonParser.serverCopy feature fallback = some copy :=
    ⟨_, if_neg (filled fallback (exportedFallback_spec exported).1)⟩
  rw [if_neg, get_pairOf accepted links feature listed exported made] at resolved
  · obtain ⟨target, member, linked, matched⟩ := resolved
    obtain ⟨host, remotePort, password, method, _⟩ :=
      (JsonParser.fallbackMatches_serverCopy made).mp matched
    exact ⟨target, member, linked, host, remotePort, password, method⟩
  · intro seen
    obtain ⟨first, taken, equal⟩ := List.mem_map.mp seen
    obtain ⟨earlier, there⟩ := List.mem_iff_getElem?.mp taken
    obtain ⟨bound, _⟩ := List.getElem?_eq_some_iff.mp there
    have before : earlier < index := by
      rw [List.length_take] at bound
      omega
    rw [List.getElem?_take_of_lt before] at there
    apply links earlier index first profile before there listed
    · rw [exported]
      exact Option.some_ne_none _
    · exact (copy_eq_iff feature (accepted first (List.mem_of_getElem? there))
        (accepted profile (List.mem_of_getElem? listed))).mp equal

/-- The copies are the profiles again unless a name of a plugin passes for a command line
or a profile with a fallback looks like an earlier one. -/
theorem matches_iff (walks : PluginOptions.Walks order)
    (filled : ∀ profile ∈ profiles, profile.password ≠ "")
    (clean : ∀ profile ∈ profiles,
      (options profile).entries.any PluginOptions.entryHasControl = false) :
    Matches defaultConfig profiles rows ↔
      (∀ profile ∈ profiles, ¬ PluginConfiguration.legacyStart <+: (options profile).id.toList) ∧
      Distinguished order defaultConfig profiles := by
  have same {index : Nat} {profile row : Profile} (listed : profiles[index]? = some profile)
      (inside : rows[index]? = some row) :
      SameProfile defaultConfig profile row ↔
        ¬ PluginConfiguration.legacyStart <+: (options profile).id.toList := by
    have member := List.mem_of_getElem? listed
    rw [sameProfile_iff (replaced.each index profile row listed inside).1,
      samePlugin_storedPlugin_iff walks (accepted profile member) (clean profile member)]
  constructor
  · intro matched
    constructor
    · intro profile member
      obtain ⟨index, listed⟩ := List.mem_iff_getElem?.mp member
      obtain ⟨row, inside⟩ := Rows.exists_getElem? replaced.length listed
      exact (same listed inside).mp (matched.same index profile row listed inside)
    · intro earlier later first second before firstListed secondListed exported twins
      obtain ⟨fallback, found⟩ := Option.ne_none_iff_exists'.mp exported
      obtain ⟨row, inside⟩ := Rows.exists_getElem? replaced.length secondListed
      obtain ⟨target, _, linked, _⟩ :=
        matched.linked later second row fallback secondListed inside found
      rw [replaced.unlinked accepted before firstListed secondListed inside twins] at linked
      cases linked
  · rintro ⟨modern, links⟩
    refine ⟨replaced.length, replaced.ordered, ?_, ?_⟩
    · intro index profile row listed inside
      exact (same listed inside).mpr (modern profile (List.mem_of_getElem? listed))
    · intro index profile row fallback listed inside exported
      exact replaced.linked accepted links filled listed inside exported

end Replaced

variable (walks : PluginOptions.Walks runtime.hashOrder)
  (acceptable : ∀ profile ∈ profiles, profile.Acceptable)

include walks acceptable

/-- The document is parsed as the contributions of its objects. -/
theorem process_export (feature : Option Profile)
    (clean : ∀ profile ∈ profiles, profile.password ≠ "" →
      (options profile).entries.any PluginOptions.entryHasControl = false) :
    JsonParser.process runtime feature {}
        (.array (profiles.map (exportedObject runtime.hashOrder profiles options))) =
      .ok (JsonParser.collect (profiles.filterMap (fun profile =>
        JsonParser.contribution runtime.hashOrder feature (ProfileManager.lookup profiles)
          (options profile) profile)) {}) := by
  rw [JsonParser.process]
  apply JsonParser.processItems_map
  intro profile listed parser
  apply JsonParser.process_members walks (acceptable profile listed) _
    (pluginOptions_spec (accepted profile listed)).1 (clean profile listed)
  intro fallback found
  exact acceptable fallback (exportedFallback_spec found).1

/-- Control characters in the options of a plugin make the import fail. -/
theorem not_reimports_control {profile : Profile} (listed : profile ∈ profiles)
    (filled : profile.password ≠ "")
    (control : (options profile).entries.any PluginOptions.entryHasControl = true) :
    ¬ Reimports runtime defaultConfig profileId current table profiles := by
  have named : (options profile).id ≠ "" := by
    intro unnamed
    rw [(pluginOptions_spec (accepted profile listed)).2.1 unnamed] at control
    cases control
  rw [reimports_iff_parsed accepted]
  rintro ⟨result, parsed, _⟩
  have fails (parser : JsonParser) : JsonParser.process runtime
      (ProfileManager.selectedRow (ProfileManager.byAddress table) profileId) parser
      (exportedObject runtime.hashOrder profiles options profile) =
        .error "No control characters allowed." := by
    rw [exportedObject, JsonParser.process,
      JsonParser.tryParse_control walks (acceptable profile listed) filled named control]
  obtain ⟨failure, failed⟩ := JsonParser.processItems_error
    (List.mem_map_of_mem listed) fails {}
  rw [JsonParser.parseJson, JsonParser.process, failed] at parsed
  cases parsed

/-- Without any password nothing is found, and the table stays. -/
theorem reimports_iff_of_silent (silent : ∀ profile ∈ profiles, profile.password = "") :
    Reimports runtime defaultConfig profileId current table profiles ↔
      Matches defaultConfig profiles table.rows := by
  have nothing (feature : Option Profile) : profiles.filterMap (fun profile =>
      JsonParser.contribution runtime.hashOrder feature (ProfileManager.lookup profiles)
        (options profile) profile) = [] := by
    rw [List.filterMap_eq_nil_iff]
    intro profile listed
    rw [JsonParser.contribution, if_pos (silent profile listed)]
    cases found : profile.exportedFallback (ProfileManager.lookup profiles) with
    | none => rfl
    | some fallback =>
        have empty := silent fallback (exportedFallback_spec found).1
        rw [Option.bind_some, JsonParser.serverCopy, if_pos empty]
        rfl
  have processed := process_export accepted walks acceptable
    (ProfileManager.selectedRow (ProfileManager.byAddress table) profileId)
    (fun profile listed filled => absurd (silent profile listed) filled)
  rw [nothing] at processed
  rw [reimports_iff_parsed accepted, JsonParser.parseJson, processed]
  constructor
  · rintro ⟨result, parsed, matched⟩
    cases parsed
    exact matched
  · intro matched
    exact ⟨_, rfl, matched⟩

/-- Of a list in which only some profiles have passwords, not all come back: every row of
an import has one. -/
theorem not_reimports_mixed
    (clean : ∀ profile ∈ profiles, profile.password ≠ "" →
      (options profile).entries.any PluginOptions.entryHasControl = false)
    {filled empty : Profile} (filledListed : filled ∈ profiles) (isFilled : filled.password ≠ "")
    (emptyListed : empty ∈ profiles) (isEmpty : empty.password = "") :
    ¬ Reimports runtime defaultConfig profileId current table profiles := by
  rw [reimports_iff_parsed accepted]
  rintro ⟨result, parsed, matched⟩
  have processed := process_export accepted walks acceptable
    (ProfileManager.selectedRow (ProfileManager.byAddress table) profileId) clean
  generalize found : profiles.filterMap (fun profile =>
    JsonParser.contribution runtime.hashOrder
      (ProfileManager.selectedRow (ProfileManager.byAddress table) profileId)
      (ProfileManager.lookup profiles) (options profile) profile) = contributions at processed
  have passwords : ∀ pair ∈ contributions, pair.1.password ≠ "" ∧
      ∀ fallback ∈ pair.2, fallback.password ≠ "" := by
    intro pair member
    rw [← found] at member
    obtain ⟨profile, _, made⟩ := List.mem_filterMap.mp member
    exact JsonParser.contribution_passwords made
  have some : contributions ≠ [] := by
    intro none
    rw [none, List.filterMap_eq_nil_iff] at found
    have nothing := found filled filledListed
    rw [JsonParser.contribution, if_neg isFilled] at nothing
    cases nothing
  obtain ⟨_, extra, offered, drawn⟩ :=
    (ImportState.keeps_offered (ProfileManager.byAddress table)).parseJson processed
      (ImportState.offered_start table)
  rw [parsed, List.nil_append, JsonParser.profiles_collect, List.nil_append] at offered
  obtain ⟨index, inside⟩ := List.mem_iff_getElem?.mp emptyListed
  obtain ⟨row, here⟩ := Rows.exists_getElem? matched.length inside
  have cleared := offered.cleared (by simp [some])
  obtain ⟨profile, listed, same⟩ := offered.passwords cleared row (List.mem_of_getElem? here)
  have nonempty : profile.password ≠ "" := by
    rcases List.mem_append.mp listed with parsed | added
    · obtain ⟨pair, member, rfl⟩ := List.mem_map.mp parsed
      exact (passwords pair member).1
    · rcases JsonParser.mem_fallbacks_collect (drawn profile added) with none | ⟨pair, member, given⟩
      · cases none
      · exact (passwords pair member).2 profile given
  apply nonempty
  rw [← same, (matched.same index empty row inside here).password, isEmpty]

section

variable (nonempty : profiles ≠ []) (filled : ∀ profile ∈ profiles, profile.password ≠ "")
  (clean : ∀ profile ∈ profiles,
    (options profile).entries.any PluginOptions.entryHasControl = false)

include nonempty filled clean

/-- With passwords everywhere, the rows are copies of the profiles. -/
theorem parseJson_export (feature : Option Profile) (old : List (String × Profile)) :
    ∃ result : ImportState,
      JsonParser.parseJson (ImportState.sink (some old)) runtime feature
          (.array (profiles.map (exportedObject runtime.hashOrder profiles options)))
          { table := table } = (result, true) ∧
      Replaced runtime.hashOrder feature profiles options result.table.rows := by
  have found : profiles.filterMap (fun profile =>
      JsonParser.contribution runtime.hashOrder feature (ProfileManager.lookup profiles)
        (options profile) profile) =
      profiles.map (pairOf runtime.hashOrder feature profiles options) := by
    rw [← List.filterMap_eq_map]
    apply List.filterMap_congr
    intro profile listed
    rw [JsonParser.contribution, if_neg (filled profile listed)]
    rfl
  have processed := process_export accepted walks acceptable feature
    (fun profile listed _ => clean profile listed)
  rw [found] at processed
  have copies : (JsonParser.collect
      (profiles.map (pairOf runtime.hashOrder feature profiles options)) {}).profiles =
        profiles.map (copyOf runtime.hashOrder feature options) := by
    rw [JsonParser.profiles_collect, List.nil_append, List.map_map]
    rfl
  have some : (JsonParser.collect
      (profiles.map (pairOf runtime.hashOrder feature profiles options)) {}).profiles ≠ [] := by
    rw [copies]
    simpa using nonempty
  obtain ⟨result, parsed, lengths, each⟩ := ImportState.parseJson_rows processed some
    (JsonParser.nodup_collect List.nodup_nil)
    (fun copy member => copies ▸ exists_copy_of_fallback accepted member) table old
  obtain ⟨_, extra, offered, _⟩ := (ImportState.keeps_offered old).parseJson processed
    (ImportState.offered_start table)
  rw [parsed] at offered
  rw [copies] at lengths each offered
  refine ⟨result, parsed, offered.ordered (offered.cleared (by simp [nonempty])), ?_, ?_⟩
  · rw [lengths, List.length_map]
  · intro index profile row listed inside
    have here := each index _ row (by rw [List.getElem?_map, listed]; rfl) inside
    rw [← List.map_take] at here
    exact here

/-- With passwords everywhere and clean options, names of plugins and profiles that look
alike decide. -/
theorem reimports_iff_of_filled :
    Reimports runtime defaultConfig profileId current table profiles ↔
      (∀ profile ∈ profiles, ¬ PluginConfiguration.legacyStart <+: (options profile).id.toList) ∧
      Distinguished runtime.hashOrder defaultConfig profiles := by
  obtain ⟨result, parsed, replaced⟩ := @parseJson_export runtime defaultConfig
    profiles options table accepted walks acceptable nonempty filled clean
    (ProfileManager.selectedRow (ProfileManager.byAddress table) profileId)
    (ProfileManager.byAddress table)
  rw [reimports_iff_parsed accepted, ← replaced.matches_iff accepted walks filled clean]
  constructor
  · rintro ⟨other, sameParsed, matched⟩
    rw [parsed] at sameParsed
    cases sameParsed
    exact matched
  · exact fun matched => ⟨result, parsed, matched⟩

end

end

/-- An exported list comes back from its import exactly if it has no passwords at all and
the table held it before, or if it replaces the table: all passwords are set, the selected
plugins have clean options and new names, and no profile with a fallback looks like an
earlier one. -/
theorem reimports_iff {runtime : Runtime} (walks : PluginOptions.Walks runtime.hashOrder)
    (defaultConfig : String → Option String) (profileId : Int) (current : Option Profile)
    (table : ProfileTable) {profiles : List Profile}
    (acceptable : ∀ profile ∈ profiles, profile.Acceptable) :
    Reimports runtime defaultConfig profileId current table profiles ↔
      ((∀ profile ∈ profiles, profile.password = "") ∧
        Matches defaultConfig profiles table.rows) ∨ Carries runtime defaultConfig profiles := by
  by_cases columns : ∀ profile ∈ profiles, ∃ options, profile.pluginOptions defaultConfig = .ok options
  swap
  · refine iff_of_false ?_ ?_
    · rintro ⟨json, result, exported, _⟩
      exact columns (fun profile listed => accepted_of_serializeToJson exported listed)
    · rintro (⟨_, matched⟩ | carries)
      · exact columns (fun profile listed => matched.accepted listed)
      · apply columns
        intro profile listed
        obtain ⟨options, accepted, _⟩ := carries.plugins profile listed
        exact ⟨options, accepted⟩
  have : Nonempty PluginOptions := ⟨{}⟩
  choose! options accepted using columns
  by_cases silent : ∀ profile ∈ profiles, profile.password = ""
  · rw [reimports_iff_of_silent accepted walks acceptable silent]
    constructor
    · exact fun matched => Or.inl ⟨silent, matched⟩
    · rintro (⟨_, matched⟩ | carries)
      · exact matched
      · obtain ⟨profile, listed⟩ := List.exists_mem_of_ne_nil _ carries.nonempty
        exact absurd (silent profile listed) (carries.passwords profile listed)
  have carried : Carries runtime defaultConfig profiles →
      ∀ profile ∈ profiles, (options profile).entries.any PluginOptions.entryHasControl = false ∧
        ¬ PluginConfiguration.legacyStart <+: (options profile).id.toList := by
    intro carries profile listed
    obtain ⟨other, given, fine⟩ := carries.plugins profile listed
    rw [accepted profile listed] at given
    cases given
    exact fine
  rw [or_iff_right (fun both => silent both.1)]
  obtain ⟨loud, loudListed, loudFilled⟩ : ∃ profile ∈ profiles, profile.password ≠ "" := by
    simpa using silent
  by_cases clean : ∀ profile ∈ profiles, profile.password ≠ "" →
      (options profile).entries.any PluginOptions.entryHasControl = false
  swap
  · obtain ⟨profile, listed, filled, control⟩ : ∃ profile ∈ profiles, profile.password ≠ "" ∧
        (options profile).entries.any PluginOptions.entryHasControl = true := by
      simpa using clean
    refine iff_of_false (not_reimports_control accepted walks acceptable listed filled control) ?_
    intro carries
    rw [(carried carries profile listed).1] at control
    cases control
  by_cases filled : ∀ profile ∈ profiles, profile.password ≠ ""
  swap
  · obtain ⟨empty, emptyListed, isEmpty⟩ : ∃ profile ∈ profiles, profile.password = "" := by
      simpa using filled
    refine iff_of_false (not_reimports_mixed accepted walks acceptable clean loudListed loudFilled
      emptyListed isEmpty) ?_
    exact fun carries => carries.passwords empty emptyListed isEmpty
  rw [reimports_iff_of_filled accepted walks acceptable (List.ne_nil_of_mem loudListed) filled
    (fun profile listed => clean profile listed (filled profile listed))]
  constructor
  · rintro ⟨modern, links⟩
    refine ⟨List.ne_nil_of_mem loudListed, filled, fun profile listed => ?_, links⟩
    exact ⟨options profile, accepted profile listed, clean profile listed (filled profile listed),
      modern profile listed⟩
  · intro carries
    exact ⟨fun profile listed => (carried carries profile listed).2, carries.links⟩

/-! ### Samples -/

def sampleServer : Profile := { id := 1, host := "192.0.2.1" }

def sampleClient : Profile where
  id := 2
  name := none
  plugin := some "obfs;k=v"
  udpFallback := some 1
  proxyApps := true
  individual := "a\nb"

theorem reimports_sample :
    Reimports asciiRuntime (fun _ => none) 0 none ProfileTable.empty
      [sampleServer, sampleClient] := by
  have each {Holds : Profile → Prop} (server : Holds sampleServer) (client : Holds sampleClient) :
      ∀ profile ∈ [sampleServer, sampleClient], Holds profile :=
    List.forall_mem_cons.mpr ⟨server, List.forall_mem_singleton.mpr client⟩
  have acceptable : ∀ profile ∈ [sampleServer, sampleClient], profile.Acceptable :=
    each ⟨by decide, by decide, by decide, by decide, by decide⟩
      ⟨by decide, by decide, by decide, by decide, by decide⟩
  refine (reimports_iff (fun _ => List.Perm.refl _) (fun _ => none) 0 none ProfileTable.empty
    acceptable).mpr (Or.inr ⟨List.cons_ne_nil _ _, each (by decide) (by decide), ?_, ?_⟩)
  · exact each ⟨{}, rfl, rfl, by decide⟩
      ⟨{ id := "obfs", entries := [("k", some "v")] }, rfl, rfl, by decide⟩
  · intro earlier later first second before firstListed secondListed _ twins
    match later, earlier, before with
    | 1, 0, _ =>
        cases firstListed
        cases secondListed
        exact absurd twins.host (by decide)
    | later + 2, _, _ => cases secondListed

def passwordless : Profile := { method := "none", password := "" }

theorem not_reimports_passwordless :
    (∀ profile ∈ [passwordless], profile.Acceptable) ∧
      ¬ Reimports asciiRuntime (fun _ => none) 0 none ProfileTable.empty [passwordless] := by
  have acceptable : ∀ profile ∈ [passwordless], profile.Acceptable := by
    simp only [List.forall_mem_singleton]
    exact ⟨by decide, by decide, by decide, by decide, by decide⟩
  have accepted : ∀ profile ∈ [passwordless],
      profile.pluginOptions (fun _ => none) = .ok ((fun _ => {}) profile) := by
    simp only [List.forall_mem_singleton]
    rfl
  refine ⟨acceptable, fun reimports => ?_⟩
  have matched := (reimports_iff_of_silent accepted (fun _ => List.Perm.refl _) acceptable (by
    simp only [List.forall_mem_singleton]
    rfl)).mp reimports
  exact absurd matched.length (by decide)

end AlienConnection.Database
