import AlienConnection.Acl.Acl
import AlienConnection.Library.Machine

/-!
# Writing and reading back

The text of a list that was read from some text is read as that list again,
whatever the default mode. The host names that reading produces are entries of
their own: they cannot be taken for a header, a comment or a subnet, and so they
survive; subnets and URLs survive as far as the platform reads back its own texts.
-/

namespace AlienConnection.Acl

open Library Net

variable {Url : Type} {platform : Platform Url}

/-! ## Entries -/

/-- A line that is read as an entry, in full. -/
structure Entry (text : Text) : Prop where
  nonempty : text ≠ []
  notHeader : text.head? ≠ some '['
  noComment : '#' ∉ text
  unbroken : ∀ char ∈ text, Text.isLineBreak char = false
  trimmed : Text.trim isWhitespace text = text

structure Hostname (platform : Platform Url) (text : Text) : Prop extends Entry text where
  notSubnet : Subnet.fromString platform.toNumerics text = none

/-- Without a comment a line is its trimmed text. -/
theorem line_of_no_comment (state : Parsing Url) {text : Text} (noComment : '#' ∉ text) :
    state.line platform true text = state.input platform (Text.trim isWhitespace text) := by
  rw [Parsing.line, if_pos rfl, Text.cut_of_not_mem noComment]
  rfl

theorem line_entry (state : Parsing Url) {text : Text} (entry : Entry text) :
    state.line platform true text = some (state.entry platform text) := by
  rw [line_of_no_comment state entry.noComment, entry.trimmed, Parsing.input,
    if_neg entry.notHeader, if_neg entry.nonempty]

/-! ## What reading produces -/

def Parsing.Clean (platform : Platform Url) (state : Parsing Url) : Prop :=
  (∀ text ∈ state.bypassHostnames, Hostname platform text) ∧
    ∀ text ∈ state.proxyHostnames, Hostname platform text

namespace Parsing.Clean

variable {state next : Parsing Url}

theorem entry (clean : state.Clean platform) {text : Text} (isEntry : Entry text) :
    (state.entry platform text).Clean platform := by
  have appended : ∀ {texts : List Text}, Subnet.fromString platform.toNumerics text = none →
      (∀ other ∈ texts, Hostname platform other) →
      ∀ other ∈ texts ++ [text], Hostname platform other := by
    intro texts notSubnet before other member
    rcases List.mem_append.mp member with old | new
    · exact before other old
    · rw [List.mem_singleton.mp new]
      exact ⟨isEntry, notSubnet⟩
  unfold Parsing.entry
  split
  · exact clean
  next notSubnet => exact ⟨appended notSubnet clean.1, clean.2⟩
  · exact clean
  next notSubnet => exact ⟨clean.1, appended notSubnet clean.2⟩
  · exact clean

theorem header (clean : state.Clean platform) {text : Text}
    (read : state.header text = some next) : next.Clean platform := by
  unfold Parsing.header at read
  split_ifs at read <;> cases read <;> exact clean

theorem input (clean : state.Clean platform) {text : Text} (noComment : '#' ∉ text)
    (unbroken : ∀ char ∈ text, Text.isLineBreak char = false)
    (trimmed : Text.trim isWhitespace text = text)
    (read : state.input platform text = some next) : next.Clean platform := by
  unfold Parsing.input at read
  split_ifs at read with isHeader isEmpty
  · exact clean.header read
  · cases read
    exact clean
  · cases read
    exact clean.entry ⟨isEmpty, isHeader, noComment, unbroken, trimmed⟩

theorem line (clean : state.Clean platform) {text : Text}
    (unbroken : ∀ char ∈ text, Text.isLineBreak char = false)
    (read : state.line platform true text = some next) : next.Clean platform := by
  have noComment : '#' ∉ Text.trim isWhitespace (Text.cut '#' text).1 := fun member =>
    (Text.mem_of_mem_cut (Text.mem_of_mem_trim member)).2 rfl
  have stillUnbroken : ∀ char ∈ Text.trim isWhitespace (Text.cut '#' text).1,
      Text.isLineBreak char = false := fun char member =>
    unbroken char (Text.mem_of_mem_cut (Text.mem_of_mem_trim member)).1
  have trimmed := Text.trim_trim isWhitespace (Text.cut '#' text).1
  simp only [Parsing.line, if_true] at read
  split at read
  · exact clean.input noComment stillUnbroken trimmed read
  next =>
    split at read
    · cases read
    next url _ =>
      have added : ({ state with urls := state.urls ++ [url] } : Parsing Url).Clean platform :=
        clean
      exact added.input noComment stillUnbroken trimmed read

end Parsing.Clean

theorem clean_parse {reader : Text} {defaultBypass : Bool} {state : Parsing Url}
    (read : parse platform true reader defaultBypass = some state) : state.Clean platform := by
  refine Machine.foldlM_invariant ?_ ⟨fun _ none => ?_, fun _ none => ?_⟩ read
  · intro state next text member clean read
    exact clean.line (Text.not_break_of_mem_lines member) read
  · cases none
  · cases none

/-! ## Reading a written list -/

def Parsing.into (target : Target) (subnets : List Subnet) (hostnames : List Text)
    (state : Parsing Url) : Parsing Url :=
  match target with
  | .outbound => state
  | .bypass =>
      { state with
        bypassSubnets := state.bypassSubnets ++ subnets
        bypassHostnames := state.bypassHostnames ++ hostnames }
  | .proxy =>
      { state with
        proxySubnets := state.proxySubnets ++ subnets
        proxyHostnames := state.proxyHostnames ++ hostnames }

theorem into_target (target : Target) (subnets : List Subnet) (hostnames : List Text)
    (state : Parsing Url) : (state.into target subnets hostnames).target = state.target := by
  cases target <;> rfl

theorem into_nil (target : Target) (state : Parsing Url) : state.into target [] [] = state := by
  cases target <;> simp [Parsing.into]

theorem into_into (target : Target) (state : Parsing Url) (subnets more : List Subnet)
    (hostnames others : List Text) :
    (state.into target subnets hostnames).into target more others =
      state.into target (subnets ++ more) (hostnames ++ others) := by
  cases target <;> simp [Parsing.into]

theorem entry_eq_into (state : Parsing Url) (text : Text) :
    state.entry platform text =
      state.into state.target (Subnet.fromString platform.toNumerics text).toList
        (if Subnet.fromString platform.toNumerics text = none then [text] else []) := by
  unfold Parsing.entry
  cases target : state.target <;> cases Subnet.fromString platform.toNumerics text <;>
    simp [Parsing.into, target]

/-- Entries are sorted into subnets and host names, in their order. -/
theorem read_entries (texts : List Text) (state : Parsing Url)
    (entries : ∀ text ∈ texts, Entry text) :
    texts.foldlM (Parsing.line platform true) state =
      some (state.into state.target
        (texts.filterMap (Subnet.fromString platform.toNumerics))
        (texts.filter (fun text => Subnet.fromString platform.toNumerics text = none))) := by
  induction texts generalizing state with
  | nil => simp [into_nil]
  | cons text rest ih =>
      rw [List.foldlM_cons, line_entry state (entries text List.mem_cons_self)]
      have restEntries : ∀ other ∈ rest, Entry other := fun other member =>
        entries other (List.mem_cons_of_mem _ member)
      refine (ih _ restEntries).trans ?_
      rw [entry_eq_into, into_target, into_into]
      cases found : Subnet.fromString platform.toNumerics text with
      | none => simp [found]
      | some subnet => simp [found]

def headerOf : Target → Text
  | .outbound => "[outbound_block_list]".toList
  | .bypass => "[bypass_list]".toList
  | .proxy => "[proxy_list]".toList

theorem line_header (target : Target) (state : Parsing Url) :
    state.line platform true (headerOf target) = some { state with target := target } := by
  rw [line_of_no_comment]
  · cases target <;> rfl
  · cases target <;> decide

def sectionLines (target : Target) (entries : List Text) : List Text :=
  if entries = [] then [] else headerOf target :: entries

theorem read_section (target : Target) (texts : List Text) (state : Parsing Url)
    (entries : ∀ text ∈ texts, Entry text) :
    ∃ last, (sectionLines target texts).foldlM (Parsing.line platform true) state =
      some { state.into target (texts.filterMap (Subnet.fromString platform.toNumerics))
        (texts.filter (fun text => Subnet.fromString platform.toNumerics text = none)) with
          target := last } := by
  unfold sectionLines
  split
  next isEmpty =>
    refine ⟨state.target, ?_⟩
    rw [isEmpty]
    simp [into_nil]
  next =>
    refine ⟨target, ?_⟩
    rw [List.foldlM_cons, line_header]
    refine (read_entries texts _ entries).trans ?_
    cases target <;> rfl

def modeLine (bypass : Bool) : Text :=
  if bypass then "[bypass_all]".toList else "[proxy_all]".toList

theorem line_mode (bypass : Bool) (state : Parsing Url) :
    state.line platform true (modeLine bypass) = some { state with bypass := bypass } := by
  rw [line_of_no_comment]
  · cases bypass <;> rfl
  · cases bypass <;> decide

/-! ## URLs -/

def importLine (platform : Platform Url) (url : Url) : Text :=
  "#IMPORT_URL <".toList ++ platform.urlText url ++ ['>']

/-- What the regular expression takes for a space. -/
structure PlainSpaces (platform : Platform Url) : Prop where
  blank : platform.space ' ' = true
  less : platform.space '<' = false
  greater : platform.space '>' = false

/-- A URL whose text is read as that URL, on one line. -/
structure Importable (platform : Platform Url) (url : Url) : Prop where
  parses : platform.url (platform.urlText url) = some url
  nonempty : platform.urlText url ≠ []
  oneLine : ∀ char ∈ platform.urlText url,
    platform.lineTerminator char = false ∧ Text.isLineBreak char = false

theorem networkAclParser_importLine (spaces : PlainSpaces platform) {text : Text}
    (nonempty : text ≠ []) (oneLine : ∀ char ∈ text, platform.lineTerminator char = false) :
    platform.networkAclParser ("IMPORT_URL <".toList ++ text ++ ['>']) = some text := by
  have behind : (text ++ ['>']).rdropWhile platform.space = text ++ ['>'] :=
    List.rdropWhile_concat_neg _ _ _ (by rw [spaces.greater]; exact Bool.false_ne_true)
  have start : (("IMPORT_URL <".toList ++ text ++ ['>']).drop "IMPORT_URL".length).dropWhile
      platform.space = '<' :: (text ++ ['>']) := by
    have dropped : ("IMPORT_URL <".toList ++ text ++ ['>']).drop "IMPORT_URL".length =
        ' ' :: '<' :: (text ++ ['>']) := by
      have length : "IMPORT_URL".length = 10 := rfl
      simp [length]
    rw [dropped, List.dropWhile_cons_of_pos spaces.blank, List.dropWhile_cons_of_neg]
    rw [spaces.less]
    exact Bool.false_ne_true
  have keyword : "IMPORT_URL".toList.isPrefixOf ("IMPORT_URL <".toList ++ text ++ ['>']) =
      true := by simp
  rw [Platform.networkAclParser, if_pos keyword, start]
  dsimp only
  rw [behind, if_pos]
  · rw [List.dropLast_concat]
  · refine ⟨rfl, List.getLast?_concat, ?_, ?_⟩
    · rw [List.dropLast_concat]
      exact nonempty
    · rw [List.dropLast_concat, List.all_eq_true]
      intro char member
      rw [oneLine char member]
      rfl

theorem line_import (spaces : PlainSpaces platform) {url : Url}
    (importable : Importable platform url) (state : Parsing Url) :
    state.line platform true (importLine platform url) =
      some { state with urls := state.urls ++ [url] } := by
  have cut : Text.cut '#' (importLine platform url) =
      ([], some ("IMPORT_URL <".toList ++ platform.urlText url ++ ['>'])) := by
    exact Text.cut_append _ List.not_mem_nil
  have found := networkAclParser_importLine spaces importable.nonempty
    (fun char member => (importable.oneLine char member).1)
  simp only [Parsing.line, if_true, cut, Option.getD_some, found, importable.parses]
  rfl

theorem read_imports (spaces : PlainSpaces platform) (urls : List Url) (state : Parsing Url)
    (importable : ∀ url ∈ urls, Importable platform url) :
    (urls.map (importLine platform)).foldlM (Parsing.line platform true) state =
      some { state with urls := state.urls ++ urls } := by
  induction urls generalizing state with
  | nil => simp
  | cons url rest ih =>
      rw [List.map_cons, List.foldlM_cons,
        line_import spaces (importable url List.mem_cons_self)]
      refine (ih _ (fun other member => importable other (List.mem_cons_of_mem _ member))).trans ?_
      simp

/-! ## The text as lines -/

theorem unlines_append (first second : List Text) :
    Text.unlines (first ++ second) = Text.unlines first ++ Text.unlines second :=
  List.flatMap_append

def outputLines (acl : Acl platform) : List Text :=
  modeLine acl.bypass :: (sectionLines .bypass acl.bypassList ++
    sectionLines .proxy acl.proxyList ++ acl.urls.items.map (importLine platform))

theorem sectionText_eq (target : Target) (entries : List Text) :
    sectionText (headerOf target) entries = Text.unlines (sectionLines target entries) := by
  unfold sectionText sectionLines
  split
  · rfl
  next nonempty =>
    rw [List.append_assoc, Text.intercalate_newline nonempty]
    rfl

theorem unlines_imports (start : Text) (text : Url → Text) (urls : List Url) :
    urls.flatMap (fun url => start ++ text url ++ ['>', '\n']) =
      Text.unlines (urls.map (fun url => start ++ text url ++ ['>'])) := by
  induction urls with
  | nil => rfl
  | cons url rest ih =>
      rw [List.flatMap_cons, ih]
      simp [Text.unlines]

theorem toString_eq (acl : Acl platform) : acl.toString = Text.unlines (outputLines acl) := by
  have mode : (if acl.bypass = true then "[bypass_all]\n".toList else "[proxy_all]\n".toList) =
      Text.unlines [modeLine acl.bypass] := by
    cases acl.bypass <;> rfl
  have written : acl.toString =
      Text.unlines [modeLine acl.bypass] ++
        Text.unlines (sectionLines .bypass acl.bypassList) ++
        Text.unlines (sectionLines .proxy acl.proxyList) ++
        Text.unlines (acl.urls.items.map (importLine platform)) :=
    congrArg₂ (· ++ ·) (congrArg₂ (· ++ ·) (congrArg₂ (· ++ ·) mode
      (sectionText_eq .bypass acl.bypassList)) (sectionText_eq .proxy acl.proxyList))
      (unlines_imports _ _ acl.urls.items)
  rw [written, ← unlines_append, ← unlines_append, ← unlines_append, outputLines]
  simp only [List.append_assoc, List.cons_append, List.nil_append]

/-! ## Texts of subnets -/

theorem isWhitespace_of_isLineBreak {char : Char} (isBreak : Text.isLineBreak char = true) :
    isWhitespace char = true := by
  simp only [Text.isLineBreak, Bool.or_eq_true, decide_eq_true_eq] at isBreak
  rcases isBreak with rfl | rfl <;> decide

theorem not_isWhitespace_of_isDigit {char : Char} (isDigit : char.isDigit = true) :
    isWhitespace char = false := by
  have range : 48 ≤ char.toNat ∧ char.toNat ≤ 57 := by
    simpa [Char.isDigit, UInt32.le_iff_toNat_le] using isDigit
  simp only [isWhitespace, Bool.or_eq_false_iff, Bool.and_eq_false_iff, decide_eq_false_iff_not]
  omega

theorem entry_subnet {subnet : Subnet}
    (readable : Subnet.Readable platform.toNumerics isWhitespace subnet.address) :
    Entry (Subnet.toString platform.toNumerics subnet) := by
  have plain : ∀ char ∈ Subnet.toString platform.toNumerics subnet,
      char ≠ '#' ∧ char ≠ '[' ∧ isWhitespace char = false := fun char member =>
    Subnet.mem_toString (fun _ => not_isWhitespace_of_isDigit) (by decide) readable member
  constructor
  case nonempty => exact Subnet.toString_ne_nil readable
  case notHeader => exact fun header => (plain '[' (List.mem_of_mem_head? header)).2.1 rfl
  case noComment => exact fun member => (plain '#' member).1 rfl
  case unbroken =>
    intro char member
    rw [← Bool.not_eq_true]
    intro isBreak
    have blank := isWhitespace_of_isLineBreak isBreak
    rw [(plain char member).2.2] at blank
    cases blank
  case trimmed => exact Text.trim_eq_self (fun char member => (plain char member).2.2)

/-- Subnets before host names are told apart. -/
theorem sort_entries {subnets : List Subnet} {hostnames : List Text}
    (ascii : Decimal.ReadsAscii platform.digit)
    (readable : ∀ subnet ∈ subnets,
      Subnet.Readable platform.toNumerics isWhitespace subnet.address)
    (clean : ∀ text ∈ hostnames, Hostname platform text) :
    (subnets.map (Subnet.toString platform.toNumerics) ++ hostnames).filterMap
        (Subnet.fromString platform.toNumerics) = subnets ∧
      (subnets.map (Subnet.toString platform.toNumerics) ++ hostnames).filter
        (fun text => Subnet.fromString platform.toNumerics text = none) = hostnames ∧
      ∀ text ∈ subnets.map (Subnet.toString platform.toNumerics) ++ hostnames, Entry text := by
  have back : ∀ subnet ∈ subnets, Subnet.fromString platform.toNumerics
      (Subnet.toString platform.toNumerics subnet) = some subnet := fun subnet member =>
    Subnet.fromString_toString ascii (readable subnet member)
  refine ⟨?_, ?_, ?_⟩
  · rw [List.filterMap_append, List.filterMap_map,
      List.filterMap_eq_nil_iff.mpr (fun text member => (clean text member).notSubnet),
      List.append_nil]
    exact (List.filterMap_congr back).trans List.filterMap_some
  · rw [List.filter_append, List.filter_eq_nil_iff.mpr, List.nil_append,
      List.filter_eq_self.mpr]
    · intro text member
      simp [(clean text member).notSubnet]
    · intro text member
      obtain ⟨subnet, inside, same⟩ := List.mem_map.mp member
      rw [← same]
      simp [back subnet inside]
  · intro text member
    rcases List.mem_append.mp member with ofSubnet | hostname
    · obtain ⟨subnet, inside, same⟩ := List.mem_map.mp ofSubnet
      rw [← same]
      exact entry_subnet (readable subnet inside)
    · exact (clean text hostname).toEntry

/-! ## The round trip -/

/-- What a list needs of the platform to be read back: decimal digits and spaces are
those of ASCII, and the addresses and URLs it holds are read back from their texts. -/
structure Reproducible (acl : Acl platform) : Prop where
  digits : Decimal.ReadsAscii platform.digit
  spaces : PlainSpaces platform
  addresses : ∀ subnet ∈ acl.subnets,
    Subnet.Readable platform.toNumerics isWhitespace subnet.address
  urls : ∀ url ∈ acl.urls, Importable platform url

def bypassSubnets (acl : Acl platform) : List Subnet := if acl.bypass then [] else acl.subnets.items

def proxySubnets (acl : Acl platform) : List Subnet := if acl.bypass then acl.subnets.items else []

theorem bypassList_eq (acl : Acl platform) : acl.bypassList =
    (bypassSubnets acl).map (Subnet.toString platform.toNumerics) ++
      acl.bypassHostnames.items := by
  unfold bypassList bypassSubnets
  split <;> rfl

theorem proxyList_eq (acl : Acl platform) : acl.proxyList =
    (proxySubnets acl).map (Subnet.toString platform.toNumerics) ++
      acl.proxyHostnames.items := by
  unfold proxyList proxySubnets
  split <;> rfl

theorem unbroken_of_all {text : Text}
    (checked : text.all (fun char => !Text.isLineBreak char) = true) :
    ∀ char ∈ text, Text.isLineBreak char = false := by
  simpa using checked

theorem not_break_section {target : Target} {texts : List Text}
    (entries : ∀ text ∈ texts, Entry text) :
    ∀ line ∈ sectionLines target texts, ∀ char ∈ line, Text.isLineBreak char = false := by
  intro line member
  unfold sectionLines at member
  split at member
  · cases member
  · rcases List.mem_cons.mp member with here | inside
    · rw [here]
      apply unbroken_of_all
      cases target <;> rfl
    · exact (entries line inside).unbroken

theorem not_break_importLine {url : Url} (importable : Importable platform url) :
    ∀ char ∈ importLine platform url, Text.isLineBreak char = false := by
  have start : ∀ char ∈ "#IMPORT_URL <".toList, Text.isLineBreak char = false :=
    unbroken_of_all rfl
  intro char member
  rcases List.mem_append.mp member with front | back
  · rcases List.mem_append.mp front with keyword | text
    · exact start char keyword
    · exact (importable.oneLine char text).2
  · rw [List.mem_singleton.mp back]
    rfl

/-- The lines of a text that was written are those that were written. -/
theorem lines_toString {acl : Acl platform}
    (bypassEntries : ∀ text ∈ acl.bypassList, Entry text)
    (proxyEntries : ∀ text ∈ acl.proxyList, Entry text)
    (importable : ∀ url ∈ acl.urls, Importable platform url) :
    Text.lines acl.toString = outputLines acl := by
  rw [toString_eq]
  refine Text.lines_unlines ?_
  intro line member
  rcases List.mem_cons.mp member with mode | member
  · rw [mode]
    apply unbroken_of_all
    cases acl.bypass <;> rfl
  · rcases List.mem_append.mp member with sections | imports
    · rcases List.mem_append.mp sections with bypass | proxy
      · exact not_break_section bypassEntries line bypass
      · exact not_break_section proxyEntries line proxy
    · obtain ⟨url, inside, same⟩ := List.mem_map.mp imports
      rw [← same]
      exact not_break_importLine (importable url inside)

/-- What the text of a list is read as. -/
theorem parse_toString {acl : Acl platform} (reproducible : Reproducible acl)
    (bypassClean : ∀ text ∈ acl.bypassHostnames.items, Hostname platform text)
    (proxyClean : ∀ text ∈ acl.proxyHostnames.items, Hostname platform text)
    (defaultBypass : Bool) :
    ∃ last, parse platform true acl.toString defaultBypass = some
      { bypass := acl.bypass
        target := last
        bypassSubnets := bypassSubnets acl
        proxySubnets := proxySubnets acl
        bypassHostnames := acl.bypassHostnames.items
        proxyHostnames := acl.proxyHostnames.items
        urls := acl.urls.items } := by
  have bypassReadable : ∀ subnet ∈ bypassSubnets acl,
      Subnet.Readable platform.toNumerics isWhitespace subnet.address := by
    intro subnet member
    unfold bypassSubnets at member
    split at member
    · cases member
    · exact reproducible.addresses subnet member
  have proxyReadable : ∀ subnet ∈ proxySubnets acl,
      Subnet.Readable platform.toNumerics isWhitespace subnet.address := by
    intro subnet member
    unfold proxySubnets at member
    split at member
    · exact reproducible.addresses subnet member
    · cases member
  obtain ⟨bypassSubnetsBack, bypassHostsBack, bypassEntries⟩ :=
    sort_entries reproducible.digits bypassReadable bypassClean
  obtain ⟨proxySubnetsBack, proxyHostsBack, proxyEntries⟩ :=
    sort_entries reproducible.digits proxyReadable proxyClean
  rw [← bypassList_eq] at bypassSubnetsBack bypassHostsBack bypassEntries
  rw [← proxyList_eq] at proxySubnetsBack proxyHostsBack proxyEntries
  -- mode, first section, second section, imports
  obtain ⟨middle, first⟩ := read_section .bypass acl.bypassList
    { (Parsing.start defaultBypass : Parsing Url) with bypass := acl.bypass } bypassEntries
  obtain ⟨last, second⟩ := read_section .proxy acl.proxyList
    { Parsing.into .bypass (bypassSubnets acl) acl.bypassHostnames.items
        { (Parsing.start defaultBypass : Parsing Url) with bypass := acl.bypass } with
      target := middle } proxyEntries
  rw [bypassSubnetsBack, bypassHostsBack] at first
  rw [proxySubnetsBack, proxyHostsBack] at second
  refine ⟨last, ?_⟩
  rw [parse, lines_toString bypassEntries proxyEntries reproducible.urls, outputLines,
    List.foldlM_cons, line_mode]
  simp only [Option.bind_eq_bind, Option.bind_some, List.foldlM_append, first, second,
    read_imports reproducible.spaces acl.urls.items _ reproducible.urls]
  rfl

variable [DecidableEq Url]

/-- The host names of a list that was read. -/
theorem hostname_of_fromReader {reader : Text} {defaultBypass : Bool} {acl : Acl platform}
    (read : Acl.fromReader platform reader defaultBypass = some acl) :
    (∀ text ∈ acl.bypassHostnames.items, Hostname platform text) ∧
      ∀ text ∈ acl.proxyHostnames.items, Hostname platform text := by
  obtain ⟨state, parsed, made⟩ := Option.map_eq_some_iff.mp read
  obtain ⟨bypassClean, proxyClean⟩ := clean_parse parsed
  rw [← made]
  exact ⟨fun text member => bypassClean text (SortedList.mem_addAll_empty.mp member),
    fun text member => proxyClean text (SortedList.mem_addAll_empty.mp member)⟩

/-- **Round trip.** URLs that compare alike without being equal may change places. -/
theorem fromReader_toString {reader : Text} {defaultBypass : Bool} {acl : Acl platform}
    (read : Acl.fromReader platform reader defaultBypass = some acl)
    (reproducible : Reproducible acl) (again : Bool) :
    ∃ copy, Acl.fromReader platform acl.toString again = some copy ∧
      copy.bypass = acl.bypass ∧ copy.bypassHostnames = acl.bypassHostnames ∧
      copy.proxyHostnames = acl.proxyHostnames ∧ copy.subnets = acl.subnets ∧
      copy.urls.items.Perm acl.urls.items ∧
      ((∀ url ∈ acl.urls, ∀ other ∈ acl.urls,
        platform.sortKey url = platform.sortKey other → url = other) → copy.urls = acl.urls) := by
  obtain ⟨bypassClean, proxyClean⟩ := hostname_of_fromReader read
  obtain ⟨last, parsed⟩ := parse_toString reproducible bypassClean proxyClean again
  have copied := congrArg (Option.map (ofParsing : Parsing Url → Acl platform)) parsed
  rw [Option.map_some] at copied
  refine ⟨_, copied, rfl, ?_, ?_, ?_, ?_, ?_⟩
  · refine SortedList.ext_of_injective Text.utf16_injective ?_
    intro text
    exact SortedList.mem_addAll_empty
  · refine SortedList.ext_of_injective Text.utf16_injective ?_
    intro text
    exact SortedList.mem_addAll_empty
  · refine SortedList.ext_of_injective Subnet.sortKey_injective ?_
    intro subnet
    refine SortedList.mem_addAll_empty.trans ?_
    unfold Parsing.subnets bypassSubnets proxySubnets
    cases acl.bypass <;> exact Iff.rfl
  · exact SortedList.perm_of_mem_iff (fun url => SortedList.mem_addAll_empty)
  · intro apart
    exact (SortedList.ext_of_mem_iff (fun url => SortedList.mem_addAll_empty.symm) apart).symm

/-! ### One list -/

def officeAddress : Address := ⟨[1, 0, 1, 0], Or.inl rfl⟩

def smallPlatform : Platform Text where
  parseNumericAddress := fun text => if text = "1.0.1.0".toList then some officeAddress else none
  hostAddress := fun _ => "1.0.1.0".toList
  digit := fun char => if char.isDigit then some (char.toNat - '0'.toNat) else none
  url := fun text => if text = "http://a/b".toList then some text else none
  urlText := fun url => url
  host := fun _ => ['a']
  port := fun _ => -1
  file := fun _ => "/b".toList
  protocol := fun _ => "http".toList
  space := fun char => char = ' ' || char = '\t'
  lineTerminator := Text.isLineBreak

def smallText : Text :=
  "[bypass_all]\n[proxy_list]\n 1.0.1.0/24 # office\r\n1.0.1.0/33\n#IMPORT_URL <http://a/b>\n".toList

theorem fromReader_toString_small :
    ∃ acl copy, Acl.fromReader smallPlatform smallText false = some acl ∧
      acl.subnets.items.length = 1 ∧ acl.proxyHostnames.items = ["1.0.1.0/33".toList] ∧
      Acl.fromReader smallPlatform acl.toString false = some copy ∧
      copy.bypass = true ∧ copy.proxyHostnames = acl.proxyHostnames ∧
      copy.subnets = acl.subnets ∧ copy.urls.items = ["http://a/b".toList] := by
  have contents : (Acl.fromReader smallPlatform smallText false).any (fun acl =>
      acl.bypass ∧ (∀ subnet ∈ acl.subnets.items, subnet.address = officeAddress) ∧
        acl.urls.items = ["http://a/b".toList] ∧ acl.subnets.items.length = 1 ∧
        acl.proxyHostnames.items = ["1.0.1.0/33".toList]) = true := by decide +kernel
  obtain ⟨acl, read, found⟩ := (Option.any_eq_true _ _).mp contents
  obtain ⟨bypass, addresses, urls, one, hostnames⟩ := of_decide_eq_true found
  have oneUrl : ∀ url ∈ acl.urls, url = "http://a/b".toList := by
    intro url member
    have inside : url ∈ acl.urls.items := member
    rw [urls] at inside
    exact List.mem_singleton.mp inside
  have reproducible : Reproducible acl := by
    constructor
    case digits =>
      unfold Decimal.ReadsAscii
      decide
    case spaces => exact ⟨by decide, by decide, by decide⟩
    case addresses =>
      intro subnet member
      rw [addresses subnet member]
      have plain : "1.0.1.0".toList.all (fun char =>
          char ≠ '/' ∧ char ≠ '#' ∧ char ≠ '[' ∧ isWhitespace char = false) = true := by decide
      exact ⟨by decide, by decide, fun char inside =>
        of_decide_eq_true (List.all_eq_true.mp plain char inside)⟩
    case urls =>
      intro url member
      rw [oneUrl url member]
      have oneLine : ∀ char ∈ "http://a/b".toList, Text.isLineBreak char = false :=
        unbroken_of_all rfl
      exact ⟨by decide, by decide, fun char inside =>
        ⟨oneLine char inside, oneLine char inside⟩⟩
  obtain ⟨copy, copied, mode, _, proxy, subnets, _, sameUrls⟩ :=
    fromReader_toString read reproducible false
  have apart : ∀ url ∈ acl.urls, ∀ other ∈ acl.urls,
      smallPlatform.sortKey url = smallPlatform.sortKey other → url = other :=
    fun url member other otherMember _ =>
      (oneUrl url member).trans (oneUrl other otherMember).symm
  refine ⟨acl, copy, read, one, hostnames, copied, mode.trans bypass, proxy, subnets, ?_⟩
  rw [sameUrls apart, urls]

end AlienConnection.Acl
