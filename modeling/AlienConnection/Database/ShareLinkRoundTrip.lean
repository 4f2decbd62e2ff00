import AlienConnection.Database.ShareLinkRules

/-!
# Share links, written and read

A profile survives being written as a link and read from it exactly if the link does not
end in an underscore or an exclamation mark, and the selected options are read back from
their line.
-/

namespace AlienConnection.Database

open Library Plugin LinkPlatform

variable {platform : LinkPlatform} {profile : Profile}

/-! ## Profiles that can be shared -/

def isHostChar (char : Char) : Bool :=
  char.isAlphanum || ['-', '.', '_', ':', '%'].contains char

/-- The second reader of links recognises a host: it finds it, and the port, in every
link with that host. -/
structure Recognised (platform : LinkPlatform) (host : Text) : Prop where
  characters : ∀ char ∈ host, isHostChar char = true
  found : ∀ auth port plugin name, (∀ char ∈ auth, Base64.isDigit .urlSafe char = true) →
    1 ≤ port → port ≤ 65535 →
      platform.javaUri (composeLink (linkServer auth (wrapHost host) port) plugin name) =
        some (some (wrapHost host), port)

structure Shareable (platform : LinkPlatform) (profile : Profile) : Prop where
  method : profile.method ≠ ""
  undivided : ':' ∉ profile.method.toList
  plain : ∀ char ∈ profile.method.toList ++ profile.password.toList,
    platform.lineTerminator char = false
  host : Recognised platform profile.host.toList
  positive : 1 ≤ profile.remotePort
  bounded : profile.remotePort ≤ 65535

/-- The link of a profile is read as one profile, which has the same server, name and
selected plugin. -/
def RoundTrips (platform : LinkPlatform) (profile : Profile) : Prop :=
  ∃ link copy, profile.toUri platform = .ok link ∧ platform.findAllUrls link none = [copy] ∧
    copy.host = profile.host ∧ copy.remotePort = profile.remotePort ∧
    copy.method = profile.method ∧ copy.password = profile.password ∧
    copy.name.getD "" = profile.name.getD "" ∧
    PluginConfiguration.SamePlugin platform.defaultConfig profile.plugin copy.plugin

/-! ## Servers -/

theorem mem_wrapHost {host : Text} {char : Char} (member : char ∈ wrapHost host) :
    char = '[' ∨ char ∈ host ∨ char = ']' := by
  rw [wrapHost] at member
  split at member
  · simpa using member
  · exact Or.inr (Or.inl member)

theorem isServerChar_of_isHostChar {char : Char} (inside : isHostChar char = true) :
    isServerChar char = true := by
  rw [isHostChar, Bool.or_eq_true] at inside
  rw [isServerChar, Bool.or_eq_true]
  rcases inside with alphanum | listed
  · exact Or.inl alphanum
  · right
    simp only [List.contains_eq_mem, List.mem_cons, List.not_mem_nil, or_false,
      decide_eq_true_eq] at listed ⊢
    rcases listed with rfl | rfl | rfl | rfl | rfl <;> simp

section

variable {auth host : Text} {port : Int}

theorem isServerChar_linkServer (digits : ∀ char ∈ auth, Base64.isDigit .urlSafe char = true)
    (characters : ∀ char ∈ host, isHostChar char = true) (positive : 1 ≤ port) :
    ∀ char ∈ linkServer auth (wrapHost host) port, isServerChar char = true := by
  intro char member
  rw [linkServer, List.mem_append, List.mem_append, List.mem_cons, List.mem_cons] at member
  rcases member with (inAuth | rfl | inHost) | rfl | inPort
  · exact isServerChar_of_isDigit (digits char inAuth)
  · rfl
  · rcases mem_wrapHost inHost with rfl | inside | rfl
    · rfl
    · exact isServerChar_of_isHostChar (characters char inside)
    · rfl
  · rfl
  · have digit := isDigit_of_mem_toString (Int.le_trans (by decide) positive) inPort
    rw [isServerChar, Char.isAlphanum, digit, Bool.or_true]
    rfl

theorem cutLast_linkServer (characters : ∀ char ∈ host, isHostChar char = true)
    (positive : 1 ≤ port) :
    Text.cutLast '@' (linkServer auth (wrapHost host) port) =
      some (auth, wrapHost host ++ ':' :: (toString port).toList) := by
  have absent : '@' ∉ wrapHost host ++ ':' :: (toString port).toList := by
    intro member
    rw [List.mem_append, List.mem_cons] at member
    rcases member with inHost | same | inPort
    · rcases mem_wrapHost inHost with same | inside | same
      · cases same
      · cases characters '@' inside
      · cases same
    · cases same
    · cases isDigit_of_mem_toString (Int.le_trans (by decide) positive) inPort
  rw [linkServer, List.append_assoc, List.cons_append]
  exact Text.cutLast_append auth absent

end

theorem isServerChar_server (shareable : Shareable platform profile) :
    ∀ char ∈ profile.server, isServerChar char = true :=
  isServerChar_linkServer (fun _ member => Base64.isDigit_of_mem_encode member)
    shareable.host.characters shareable.positive

theorem userInfo_server (shareable : Shareable platform profile) (query fragment : Option Text) :
    Uri.userInfo { authority := some profile.server, query := query, fragment := fragment } =
      some profile.auth := by
  rw [Uri.userInfo, Profile.server]
  simp only [Option.bind_some,
    cutLast_linkServer shareable.host.characters shareable.positive, Option.map_some]

theorem withoutBrackets_wrapHost {host : Text}
    (characters : ∀ char ∈ host, isHostChar char = true) :
    withoutBrackets (wrapHost host) = host := by
  rw [wrapHost]
  split
  · have last : ('[' :: host ++ [']']).getLast? = some ']' := List.getLast?_concat
    rw [withoutBrackets, if_pos ⟨rfl, last⟩]
    simp
  · rw [withoutBrackets, if_neg]
    rintro ⟨first, _⟩
    have member : '[' ∈ host := List.mem_of_mem_head? first
    cases characters '[' member

theorem unreserved_of_isDigit {char : Char} (digit : Base64.isDigit .urlSafe char = true) :
    unreserved char = true := by
  have inside := isServerChar_of_isDigit digit
  rw [isServerChar, Bool.or_eq_true] at inside
  rw [unreserved, Bool.or_eq_true]
  rcases inside with alphanum | listed
  · exact Or.inl alphanum
  · simp only [List.contains_eq_mem, List.mem_cons, List.not_mem_nil, or_false,
      decide_eq_true_eq] at listed
    rcases listed with rfl | rfl | rfl | rfl | rfl | rfl | rfl | rfl <;>
      first | exact Or.inr rfl | cases digit

/-! ## Reading a written link -/

def imported (profile : Profile) (plugin name : Option Text) : Profile :=
  { method := profile.method
    password := profile.password
    host := profile.host
    remotePort := profile.remotePort
    plugin := plugin.map String.ofList
    name := some ((name.map String.ofList).getD "") }

theorem readLink_written (documented : platform.Documented)
    (shareable : Shareable platform profile) (plugin name : Option Text) :
    platform.readLink none (composeLink profile.server plugin name) =
      some (imported profile plugin name) := by
  have auth : platform.uriDecode false profile.auth = profile.auth := by
    have same : Percent.encode unreserved profile.auth = profile.auth :=
      Percent.encode_eq_self (fun char member =>
        unreserved_of_isDigit (Base64.isDigit_of_mem_encode member))
    rw [← same, documented.uriDecode, same]
  have decoded : platform.base64 .urlSafe profile.auth =
      some (Text.utf8 (profile.method.toList ++ ':' :: profile.password.toList)) :=
    documented.base64 _
  have nonempty : profile.method.toList ≠ [] := fun empty =>
    shareable.method (String.toList_eq_nil_iff.mp empty)
  have groups : platform.userInfoPattern
      (profile.method.toList ++ ':' :: profile.password.toList) =
        some (profile.method.toList, profile.password.toList) :=
    userInfoPattern_written nonempty shareable.undivided shareable.plain
  have address : platform.javaUri (composeLink profile.server plugin name) =
      some (some (wrapHost profile.host.toList), profile.remotePort) :=
    shareable.host.found _ _ _ _ (fun _ member => Base64.isDigit_of_mem_encode member)
      shareable.positive shareable.bounded
  have components := parse_composeLink (isServerChar_server shareable) plugin name
  have named : ∀ text, platform.uriDecode false (Percent.encode unreserved text) = text :=
    documented.uriDecode false
  have carried : ∀ text, platform.uriDecode true (Percent.encode unreserved text) = text :=
    documented.uriDecode true
  simp only [readLink, components, userInfo_server shareable, readModern, auth, decoded,
    documented.string, groups, address, Option.bind_eq_bind, Option.bind_some, pluginOf, nameOf,
    queryParameter_plugin, Option.getD_some, withoutBrackets_wrapHost shareable.host.characters,
    String.ofList_toList, blank, imported, carried, Option.map_map]
  cases plugin <;> cases name <;> simp [Function.comp, named]

def clipped : Option Text → Option Text → Option Text × Option Text
  | plugin, some name => (plugin, some (name.rdropWhile isLost))
  | some plugin, none => (some (plugin.rdropWhile isLost), none)
  | none, none => (none, none)

theorem findAll_tail (documented : platform.Documented) {front : Text}
    (inside : ∀ char ∈ front, platform.inLink char = true)
    (ends : front.getLast?.any platform.endsLink = true) (text : Text) :
    platform.findAll 0 (linkScheme ++ (front ++ Percent.encode unreserved text)) =
      [linkScheme ++ (front ++ Percent.encode unreserved (text.rdropWhile isLost))] := by
  refine findAll_link documented ?_ (rdropWhile_encode documented ends text) ?_
  · intro char member
    rcases List.mem_append.mp member with before | behind
    · exact inside char before
    · exact inLink_of_mem_encode documented behind
  · apply List.append_ne_nil_of_left_ne_nil
    rintro rfl
    cases ends

/-- A server ends in a digit of its port. -/
theorem server_ends (shareable : Shareable platform profile) :
    ∃ front digit, profile.server = front ++ [digit] ∧ digit.isDigit = true := by
  have positive : 0 ≤ profile.remotePort := by
    have := shareable.positive
    omega
  have nonempty : (toString profile.remotePort).toList ≠ [] := by
    obtain ⟨number, _, written⟩ := Decimal.exists_toDigits positive
    rw [written]
    exact Nat.toDigits_ne_nil
  obtain ⟨front, digit, split⟩ := (List.eq_nil_or_concat' _).resolve_left nonempty
  refine ⟨profile.auth ++ '@' :: wrapHost profile.host.toList ++ ':' :: front, digit, ?_, ?_⟩
  · rw [Profile.server, linkServer, split]
    simp
  · apply isDigit_of_mem_toString positive
    rw [split]
    exact List.mem_append_right _ List.mem_cons_self

theorem inLink_server (documented : platform.Documented)
    (shareable : Shareable platform profile) :
    ∀ char ∈ profile.server, platform.inLink char = true := fun char member =>
  inLink_of_isServerChar documented (isServerChar_server shareable char member)

theorem inLink_pluginKey (documented : platform.Documented) :
    ∀ char ∈ '?' :: pluginKey, platform.inLink char = true := by
  intro char member
  have all : ('?' :: pluginKey).all
      (fun char => char.isAlphanum || char == '?' || char == '=') = true := rfl
  have here := List.all_eq_true.mp all char member
  rw [Bool.or_eq_true, Bool.or_eq_true, beq_iff_eq, beq_iff_eq] at here
  rcases here with (alphanum | rfl) | rfl
  · rw [inLink, endsLink_of_isAlphanum documented alphanum]
    rfl
  · simp [inLink]
  · simp [inLink, endsLink]

/-- Everything in front of the name belongs to the link. -/
theorem inLink_query (documented : platform.Documented) (shareable : Shareable platform profile)
    (plugin : Option Text) :
    ∀ char ∈ profile.server ++ linkQuery plugin, platform.inLink char = true := by
  intro char member
  rcases List.mem_append.mp member with before | behind
  · exact inLink_server documented shareable char before
  · cases plugin with
    | none => cases behind
    | some text =>
        rcases List.mem_append.mp behind with start | coded
        · exact inLink_pluginKey documented char start
        · exact inLink_of_mem_encode documented coded

theorem findAll_written (documented : platform.Documented)
    (shareable : Shareable platform profile) (plugin name : Option Text) :
    platform.findAll 0 (composeLink profile.server plugin name) =
      [composeLink profile.server (clipped plugin name).1 (clipped plugin name).2] := by
  cases name with
  | some text =>
      have link : ∀ shown, composeLink profile.server plugin (some shown) =
          linkScheme ++ (profile.server ++ linkQuery plugin ++ ['#'] ++
            Percent.encode unreserved shown) := by
        intro shown
        rw [composeLink, linkFragment, List.append_cons]
      rw [link, clipped, link]
      apply findAll_tail documented
      · intro char member
        rcases List.mem_append.mp member with before | last
        · exact inLink_query documented shareable plugin char before
        · rw [List.mem_singleton.mp last]
          simp [inLink, endsLink]
      · rw [List.getLast?_concat]
        simp [endsLink]
  | none =>
      cases plugin with
      | some text =>
          have link : ∀ shown, composeLink profile.server (some shown) none =
              linkScheme ++ (profile.server ++ '?' :: pluginKey ++
                Percent.encode unreserved shown) := by
            intro shown
            rw [composeLink, linkQuery, linkFragment, List.append_nil,
              List.append_assoc profile.server]
          rw [link, clipped, link]
          apply findAll_tail documented
          · intro char member
            rcases List.mem_append.mp member with before | behind
            · exact inLink_server documented shareable char before
            · exact inLink_pluginKey documented char behind
          · have last : (profile.server ++ '?' :: pluginKey).getLast? = some '=' := by
              have split : profile.server ++ '?' :: pluginKey =
                  profile.server ++ '?' :: "plugin".toList ++ ['='] := by
                rw [List.append_assoc]
                rfl
              rw [split, List.getLast?_concat]
            rw [last]
            simp [endsLink]
      | none =>
          have link : composeLink profile.server none none =
              linkScheme ++ (profile.server ++ Percent.encode unreserved []) := by
            rw [composeLink, linkQuery, linkFragment, List.append_nil]
            rfl
          rw [clipped, link]
          apply findAll_tail documented (inLink_server documented shareable)
          obtain ⟨front, digit, written, isDigit⟩ := server_ends shareable
          rw [written, List.getLast?_concat]
          simp [endsLink, isDigit]

/-! ## The last text of a link -/

def lastText (order : HashOrder) (options : PluginOptions) : String :=
  match (order options.entries).getLast? with
  | none => options.id
  | some (key, none) => key
  | some (_, some value) => value

def linkEnd (platform : LinkPlatform) (profile : Profile) (options : PluginOptions) : String :=
  if profile.name.getD "" = "" then lastText platform.hashOrder options else profile.name.getD ""

def endsLost (text : Text) : Bool := text.getLast?.any isLost

theorem rdropWhile_isLost_iff (text : Text) :
    text.rdropWhile isLost = text ↔ endsLost text = false := by
  rw [List.rdropWhile_eq_self_iff]
  rcases List.eq_nil_or_concat' text with rfl | ⟨front, last, rfl⟩
  · simp [endsLost]
  · simp [endsLost]

theorem endsLost_append (text : String) :
    endsLost (PluginOptions.append text) = endsLost text.toList := by
  rcases List.eq_nil_or_concat' text.toList with empty | ⟨front, last, split⟩
  · rw [PluginOptions.append, empty]
    rfl
  · have whole : text = String.ofList (front ++ [last]) := by
      rw [← split, String.ofList_toList]
    rw [endsLost, endsLost, split, whole, PluginConfiguration.append_concat]
    split <;> simp

theorem endsLost_behind {delimiter : Char} (kept : isLost delimiter = false) (front : Text)
    (text : String) :
    endsLost (front ++ delimiter :: PluginOptions.append text) = endsLost text.toList := by
  rw [← endsLost_append]
  rcases List.eq_nil_or_concat' (PluginOptions.append text) with empty | ⟨start, last, split⟩
  · rw [empty, endsLost, List.getLast?_concat]
    exact kept
  · rw [split, ← List.cons_append, ← List.append_assoc, endsLost, endsLost, List.getLast?_concat,
      List.getLast?_concat]

theorem endsLost_line {order : HashOrder} {options : PluginOptions} (named : options.id ≠ "") :
    endsLost (PluginConfiguration.line order options) =
      endsLost (lastText order options).toList := by
  rw [PluginConfiguration.line, lastText]
  rcases List.eq_nil_or_concat' (order options.entries) with none | ⟨before, ⟨key, value⟩, last⟩
  · rw [none]
    exact endsLost_append options.id
  · rw [last, PluginOptions.appendEntries_concat (PluginOptions.append_ne_nil named),
      List.getLast?_concat]
    cases value with
    | none =>
        rw [PluginOptions.field, List.append_nil]
        exact endsLost_behind rfl _ key
    | some value =>
        rw [PluginOptions.field, ← List.cons_append, ← List.append_assoc]
        exact endsLost_behind rfl _ value

/-! ## The round trip -/

structure Survives (platform : LinkPlatform) (profile : Profile) (options : PluginOptions) :
    Prop where
  tail : endsLost (linkEnd platform profile options).toList = false
  clean : options.entries.any PluginOptions.entryHasControl = false
  modern : ¬ PluginConfiguration.legacyStart <+: options.id.toList

section

variable {configuration : PluginConfiguration} {options : PluginOptions}
  (accepted : PluginConfiguration.read (profile.plugin.getD "") = .ok configuration)
  (selected : configuration.selectedOptions platform.defaultConfig = .ok options)

include accepted selected

/-- What the link carries of the plugin. -/
theorem linkPlugin_eq :
    profile.linkPlugin platform =
      .ok (if options.id = "" then none
        else some (PluginConfiguration.line platform.hashOrder options)) := by
  have named := (PluginConfiguration.selected_facts accepted selected).1
  simp only [Profile.linkPlugin, accepted, selected, Bind.bind, Except.bind]
  rw [← named]
  split
  · rfl
  next nonempty =>
    rw [PluginConfiguration.render_eq_line nonempty, String.toList_ofList]

theorem roundTrips_iff_clipped (documented : platform.Documented)
    (shareable : Shareable platform profile) {plugin : Option Text}
    (carried : profile.linkPlugin platform = .ok plugin) {left : Option Text × Option Text}
    (clip : clipped plugin ((nonEmpty profile.name).map String.toList) = left) :
    RoundTrips platform profile ↔
      (left.2.map String.ofList).getD "" = profile.name.getD "" ∧
        PluginConfiguration.Restores platform.defaultConfig
          ((left.1.map String.ofList).getD "") options := by
  have link : profile.toUri platform =
      .ok (composeLink profile.server plugin ((nonEmpty profile.name).map String.toList)) := by
    rw [Profile.toUri, carried]
    rfl
  have read : platform.findAllUrls
      (composeLink profile.server plugin ((nonEmpty profile.name).map String.toList)) none =
        [imported profile left.1 left.2] := by
    rw [findAllUrls, findAll_written documented shareable, clip]
    simp only [List.filterMap_cons, List.filterMap_nil, readLink_written documented shareable]
  rw [← PluginConfiguration.samePlugin_iff accepted selected]
  constructor
  · rintro ⟨other, copy, written, found, _, _, _, _, name, same⟩
    rw [link] at written
    cases written
    rw [read] at found
    cases found
    exact ⟨name, same⟩
  · rintro ⟨name, same⟩
    exact ⟨_, _, link, read, rfl, rfl, rfl, rfl, name, same⟩

end

theorem nonEmpty_cases (text : Option String) :
    (nonEmpty text = none ∧ text.getD "" = "") ∨
      ∃ shown, nonEmpty text = some shown ∧ text.getD "" = shown ∧ shown ≠ "" := by
  cases text with
  | none => exact Or.inl ⟨rfl, rfl⟩
  | some text =>
      by_cases empty : text = ""
      · rw [empty]
        exact Or.inl ⟨rfl, rfl⟩
      · refine Or.inr ⟨text, ?_, rfl, empty⟩
        rw [nonEmpty, Option.filter_some, if_pos]
        simpa using empty

theorem isDelimiter_of_isLost {char : Char} (lost : isLost char = true) :
    PluginOptions.isDelimiter char = false := by
  rw [isLost, Bool.or_eq_true, decide_eq_true_eq, decide_eq_true_eq] at lost
  rcases lost with rfl | rfl <;> rfl

/-- The name of a link is read back exactly if it does not lose its end. -/
theorem name_iff (shown : String) :
    String.ofList (shown.toList.rdropWhile isLost) = shown ↔ endsLost shown.toList = false := by
  rw [← rdropWhile_isLost_iff]
  constructor
  · intro same
    rw [← String.toList_ofList (l := shown.toList.rdropWhile isLost), same]
  · intro same
    rw [same, String.ofList_toList]

/-- The line of a plugin is read back from a link that ends with it exactly if it does not
lose its end and is read back as a whole. -/
theorem restores_clipped_iff (defaultConfig : String → Option String) {order : HashOrder}
    {options : PluginOptions} (walks : PluginOptions.Walks order)
    (legible : PluginConfiguration.Legible options) (named : options.id ≠ "") :
    PluginConfiguration.Restores defaultConfig
        (String.ofList ((PluginConfiguration.line order options).rdropWhile isLost)) options ↔
      endsLost (lastText order options).toList = false ∧
        options.entries.any PluginOptions.entryHasControl = false ∧
          ¬ PluginConfiguration.legacyStart <+: options.id.toList := by
  rw [← endsLost_line named]
  cases ends : endsLost (PluginConfiguration.line order options) with
  | true =>
      refine iff_of_false ?_ (fun both => nomatch both.1)
      have split : (PluginConfiguration.line order options).rdropWhile isLost ++
          (PluginConfiguration.line order options).rtakeWhile isLost =
            PluginConfiguration.line order options := List.rdropWhile_append_rtakeWhile
      apply PluginConfiguration.not_restores_cut walks legible named split.symm
      · intro none
        rw [none, List.append_nil, rdropWhile_isLost_iff, ends] at split
        cases split
      · exact fun char member => isDelimiter_of_isLost (List.mem_rtakeWhile_imp member)
  | false =>
      rw [(rdropWhile_isLost_iff _).mpr ends, ← PluginConfiguration.render_eq_line named,
        PluginConfiguration.restores_iff walks legible named]
      exact (and_iff_right rfl).symm

/-- A profile survives being written as a link and read from it exactly if the last text of
the link does not end in an underscore or an exclamation mark, the selected options have no
control characters, and the name of the plugin does not begin like a command line of old
versions. -/
theorem roundTrips_iff (documented : platform.Documented)
    (shareable : Shareable platform profile) {configuration : PluginConfiguration}
    {options : PluginOptions}
    (accepted : PluginConfiguration.read (profile.plugin.getD "") = .ok configuration)
    (selected : configuration.selectedOptions platform.defaultConfig = .ok options) :
    RoundTrips platform profile ↔ Survives platform profile options := by
  have walks := documented.hashOrder
  obtain ⟨_, legible, empty⟩ := PluginConfiguration.selected_facts accepted selected
  rw [roundTrips_iff_clipped accepted selected documented shareable
    (linkPlugin_eq accepted selected) rfl]
  have whole : options.id ≠ "" → (PluginConfiguration.Restores platform.defaultConfig
      (String.ofList (PluginConfiguration.line platform.hashOrder options)) options ↔
        options.entries.any PluginOptions.entryHasControl = false ∧
          ¬ PluginConfiguration.legacyStart <+: options.id.toList) := by
    intro named
    rw [← PluginConfiguration.render_eq_line named]
    exact PluginConfiguration.restores_iff walks legible named
  by_cases unnamed : options.id = ""
  · -- no plugin is selected, and the name is all that can be lost
    obtain rfl := empty unnamed
    have nothing : lastText platform.hashOrder {} = "" := by
      rw [lastText, (walks []).eq_nil]
      rfl
    rcases nonEmpty_cases profile.name with ⟨none, shown⟩ | ⟨shown, some, same, nonempty⟩
    · rw [none]
      refine iff_of_true ⟨shown.symm, PluginConfiguration.restores_empty _⟩ ⟨?_, rfl, by decide⟩
      rw [linkEnd, if_pos shown, nothing]
      rfl
    · rw [some, same]
      constructor
      · rintro ⟨name, _⟩
        refine ⟨?_, rfl, by decide⟩
        rw [linkEnd, same, if_neg nonempty]
        exact (name_iff shown).mp name
      · rintro ⟨tail, _, _⟩
        rw [linkEnd, same, if_neg nonempty] at tail
        exact ⟨(name_iff shown).mpr tail, PluginConfiguration.restores_empty _⟩
  · rw [if_neg unnamed]
    rcases nonEmpty_cases profile.name with ⟨none, shown⟩ | ⟨shown, some, same, nonempty⟩
    · -- the link ends with the plugin
      have last := restores_clipped_iff platform.defaultConfig walks legible unnamed
      rw [none]
      constructor
      · rintro ⟨_, restores⟩
        obtain ⟨tail, clean, modern⟩ := last.mp restores
        refine ⟨?_, clean, modern⟩
        rw [linkEnd, if_pos shown]
        exact tail
      · rintro ⟨tail, clean, modern⟩
        rw [linkEnd, if_pos shown] at tail
        exact ⟨shown.symm, last.mpr ⟨tail, clean, modern⟩⟩
    · -- the link ends with the name
      rw [some, same]
      constructor
      · rintro ⟨name, restores⟩
        obtain ⟨clean, modern⟩ := (whole unnamed).mp restores
        refine ⟨?_, clean, modern⟩
        rw [linkEnd, same, if_neg nonempty]
        exact (name_iff shown).mp name
      · rintro ⟨tail, clean, modern⟩
        rw [linkEnd, same, if_neg nonempty] at tail
        exact ⟨(name_iff shown).mpr tail, (whole unnamed).mpr ⟨clean, modern⟩⟩

/-! ## A platform -/

def plainPlatform : LinkPlatform where
  digit := asciiRuntime.digit
  hashOrder := asciiRuntime.hashOrder
  base64 := Base64.decode
  string := fun bytes => (Text.ofUtf8 bytes).getD []
  uriDecode := Percent.decode
  uriHost := fun authority => (Text.cut ':' authority).1
  javaUri := fun link => do
    let (_, address) ← (Uri.parse link).authority.bind (Text.cutLast '@')
    let (host, port) ← Text.cutLast ':' address
    let number ← Decimal.parseInt asciiRuntime.digit port
    some (some host, number)
  foldCase := Char.toLower
  lineTerminator := Text.isLineBreak
  lowercase := fun text => text.map Char.toLower
  defaultConfig := fun _ => none

theorem documented_plainPlatform : plainPlatform.Documented where
  base64 := Base64.decode_encode .urlSafe
  string := by
    intro text
    change (Text.ofUtf8 (Text.utf8 text)).getD [] = text
    rw [Text.ofUtf8_utf8]
    rfl
  uriDecode := fun plus text => Percent.decode_encode plus rfl rfl text
  foldCase := fun _ _ => rfl
  hashOrder := fun _ => List.Perm.refl _

theorem readsAscii_digit : Decimal.ReadsAscii asciiRuntime.digit := by
  unfold Decimal.ReadsAscii
  decide

theorem recognised_plainPlatform {host : Text}
    (characters : ∀ char ∈ host, isHostChar char = true) : Recognised plainPlatform host where
  characters := characters
  found := by
    intro auth port plugin name digits positive bounded
    have inside := isServerChar_linkServer digits characters positive
    obtain ⟨number, rfl, written⟩ :=
      Decimal.exists_toDigits (Int.le_trans (by decide) positive)
    have absent : ':' ∉ Nat.toDigits 10 number := fun member =>
      nomatch Nat.isDigit_of_mem_toDigits (by decide) (by decide) member
    have parsed := Decimal.parseInt_toDigits readsAscii_digit (show number < 2 ^ 31 by omega)
    simp only [plainPlatform, parse_composeLink inside, Option.bind_eq_bind, Option.bind_some,
      cutLast_linkServer characters positive, written,
      Text.cutLast_append (wrapHost host) absent, parsed]

def sampleProfile : Profile :=
  { name := some "a b/ü", host := "2001:db8::1", plugin := some "obfs;k=v_\nother" }

theorem shareable_plainPlatform {profile : Profile} (method : profile.method ≠ "")
    (undivided : ':' ∉ profile.method.toList)
    (plain : (profile.method.toList ++ profile.password.toList).any Text.isLineBreak = false)
    (characters : profile.host.toList.all isHostChar = true)
    (positive : 1 ≤ profile.remotePort) (bounded : profile.remotePort ≤ 65535) :
    Shareable plainPlatform profile where
  method := method
  undivided := undivided
  plain := fun char member => Bool.eq_false_iff.mpr (List.any_eq_false.mp plain char member)
  host := recognised_plainPlatform (List.all_eq_true.mp characters)
  positive := positive
  bounded := bounded

theorem roundTrips_sample : RoundTrips plainPlatform sampleProfile := by
  have shareable : Shareable plainPlatform sampleProfile :=
    shareable_plainPlatform (by decide) (by decide) rfl rfl (by decide) (by decide)
  have accepted : PluginConfiguration.read (sampleProfile.plugin.getD "") =
      .ok (PluginConfiguration.ofPlugins
        [{ id := "obfs", entries := [("k", some "v_")] }, { id := "other" }]) := rfl
  have selected : (PluginConfiguration.ofPlugins
      [{ id := "obfs", entries := [("k", some "v_")] }, { id := "other" }]).selectedOptions
        plainPlatform.defaultConfig = .ok { id := "obfs", entries := [("k", some "v_")] } := rfl
  exact (roundTrips_iff documented_plainPlatform shareable accepted selected).mpr
    ⟨rfl, rfl, by decide⟩

def underscoreProfile : Profile := { name := some "server_" }

theorem not_roundTrips_underscore :
    plainPlatform.Documented ∧ Shareable plainPlatform underscoreProfile ∧
      ¬ RoundTrips plainPlatform underscoreProfile := by
  have shareable : Shareable plainPlatform underscoreProfile :=
    shareable_plainPlatform (by decide) (by decide) rfl rfl (by decide) (by decide)
  have accepted : PluginConfiguration.read (underscoreProfile.plugin.getD "") =
      .ok (PluginConfiguration.ofPlugins [{}]) := rfl
  have carried : underscoreProfile.linkPlugin plainPlatform = .ok none := rfl
  have clip : clipped none ((nonEmpty underscoreProfile.name).map String.toList) =
      (none, some "server".toList) := rfl
  refine ⟨documented_plainPlatform, shareable, fun roundTrips => ?_⟩
  have both := (roundTrips_iff_clipped accepted rfl documented_plainPlatform shareable carried
    clip).mp roundTrips
  exact absurd both.1 (by decide)

end AlienConnection.Database
