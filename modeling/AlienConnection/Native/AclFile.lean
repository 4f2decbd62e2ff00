import AlienConnection.Acl.Flatten
import AlienConnection.Acl.RoundTrip
import AlienConnection.Native.AccessControl

/-!
# Rules that the app writes for the native client

The app keeps rules as lists of host names and subnets and writes them to a file. The native
client reads the file in its own way. What the client decides is compared with what the lists
of the app say.
-/

namespace AlienConnection

/-- The rules of the user, if there are any. They say what to proxy, so a list that says what
to bypass loses its subnets. -/
def Acl.customRules {Url : Type} [DecidableEq Url] (platform : Acl.Platform Url)
    (file : Option Library.Text) : Option (Acl platform) :=
  let read : Option (Acl platform) := match file with
    | some text => Acl.fromReader platform text true
    | none => some {}
  read.map fun acl => if acl.bypass then acl else { acl with bypass := true, subnets := .empty }

namespace Native

open Library
open Net (Subnet)
open Acl (Target Entry Hostname Platform headerOf modeLine sectionLines importLine outputLines)

namespace AccessControl

/-! ## Lines -/

theorem bufLinesFrom_append_newline {line : Text} (start rest : Text)
    (unbroken : ∀ char ∈ line, Text.isLineBreak char = false)
    (plain : start.getLast? ≠ some '\r') :
    bufLinesFrom start (line ++ '\n' :: rest) = (start ++ line) :: bufLinesFrom [] rest := by
  induction line generalizing start with
  | nil =>
      rw [List.nil_append, bufLinesFrom, if_pos rfl, if_neg plain, List.append_nil]
  | cons char line ih =>
      have noBreak := unbroken char List.mem_cons_self
      simp only [Text.isLineBreak, Bool.or_eq_false_iff, decide_eq_false_iff_not] at noBreak
      rw [List.cons_append, bufLinesFrom, if_neg noBreak.1,
        ih _ (fun other member => unbroken other (List.mem_cons_of_mem _ member))
          (by simpa using noBreak.2), List.append_assoc, List.singleton_append]

theorem bufLines_unlines {lines : List Text}
    (unbroken : ∀ line ∈ lines, ∀ char ∈ line, Text.isLineBreak char = false) :
    bufLines (Text.unlines lines) = lines := by
  induction lines with
  | nil => rfl
  | cons line rest ih =>
      have written : Text.unlines (line :: rest) = line ++ '\n' :: Text.unlines rest := by
        simp [Text.unlines]
      rw [written, bufLines,
        bufLinesFrom_append_newline [] _ (unbroken line List.mem_cons_self) (by simp)]
      exact congrArg (line :: ·) (ih (fun other member =>
        unbroken other (List.mem_cons_of_mem _ member)))

/-- An entry as the client takes it. The client knows one blank more than the app, the control
character for a next line. -/
structure NativeEntry (text : Text) : Prop extends Entry text where
  native : Text.trim isWhitespace text = text

theorem content_entry {text : Text} (entry : NativeEntry text) :
    content text = if isAscii text then some text else none := by
  have some : text.isEmpty = false := by
    cases text with
    | nil => exact absurd rfl entry.nonempty
    | cons _ _ => rfl
  have noComment : text.head? ≠ .some '#' := fun first =>
    entry.noComment (List.mem_of_mem_head? first)
  rw [content, some, Bool.false_or, if_neg (by simpa using noComment)]
  dsimp only
  rw [entry.native]

theorem filterMap_content {texts : List Text} (entries : ∀ text ∈ texts, NativeEntry text) :
    texts.filterMap content = texts.filter isAscii := by
  induction texts with
  | nil => rfl
  | cons text rest ih =>
      rw [List.filterMap_cons, content_entry (entries text List.mem_cons_self),
        ih (fun other member => entries other (List.mem_cons_of_mem _ member))]
      by_cases ascii : isAscii text = true
      · rw [if_pos ascii, List.filter_cons_of_pos ascii]
      · rw [if_neg ascii, List.filter_cons_of_neg ascii]

/-! ## Sections -/

theorem sections_entries {texts : List Text} (plain : ∀ text ∈ texts, Acl.isBracketed text = false)
    (target : Target) (rest : List Text) :
    sections target (texts ++ rest) = texts.map (fun text => (target, text)) ++
      sections target rest := by
  induction texts with
  | nil => rfl
  | cons text texts ih =>
      have here := plain text List.mem_cons_self
      rw [List.cons_append, sections, Acl.sectionOf_of_not_bracketed here,
        Acl.modeOf_of_not_bracketed here]
      change (target, text) :: sections target (texts ++ rest) = _
      rw [ih (fun other member => plain other (List.mem_cons_of_mem _ member))]
      rfl

/-- What the client sees of a section that the app has written. -/
theorem sections_sectionLines {texts : List Text} (entries : ∀ text ∈ texts, NativeEntry text)
    (start target : Target) (rest : List Text) :
    ∃ last, sections start ((sectionLines target texts).filterMap content ++ rest) =
      (texts.filter isAscii).map (fun text => (target, text)) ++ sections last rest := by
  unfold sectionLines
  split
  · rename_i none
    exact ⟨start, by rw [none]; rfl⟩
  · have header : content (headerOf target) = some (headerOf target) := by
      cases target <;> decide
    have place : Acl.sectionOf (headerOf target) = some target := by
      cases target <;> decide
    refine ⟨target, ?_⟩
    rw [List.filterMap_cons_some header, List.cons_append, sections, place,
      filterMap_content entries]
    apply sections_entries
    intro text member
    have entry := entries text (List.mem_filter.mp member).1
    rw [Acl.isBracketed, decide_eq_false_iff_not]
    exact entry.notHeader

/-! ## The file -/

section File

variable {Url : Type} {platform : Platform Url} {crates : AclCrates}

/-- What the client needs to read a list of the app: every entry and every import is on one
line, and the client knows no other blanks in the entries. -/
structure Written (acl : Acl platform) : Prop where
  bypass : ∀ text ∈ acl.bypassList, NativeEntry text
  proxy : ∀ text ∈ acl.proxyList, NativeEntry text
  imports : ∀ url ∈ acl.urls, ∀ char ∈ platform.urlText url, Text.isLineBreak char = false

theorem bufLines_toString {acl : Acl platform} (written : Written acl) :
    bufLines acl.toString = outputLines acl := by
  rw [Acl.toString_eq]
  apply bufLines_unlines
  intro line member
  rcases List.mem_cons.mp member with mode | member
  · rw [mode]
    apply Acl.unbroken_of_all
    cases acl.bypass <;> rfl
  · rcases List.mem_append.mp member with inside | imports
    · rcases List.mem_append.mp inside with bypass | proxy
      · exact Acl.not_break_section (fun text member => (written.bypass text member).toEntry) line
          bypass
      · exact Acl.not_break_section (fun text member => (written.proxy text member).toEntry) line
          proxy
    · obtain ⟨url, inside, rfl⟩ := List.mem_map.mp imports
      intro char member
      rcases List.mem_append.mp member with front | last
      · rcases List.mem_append.mp front with keyword | text
        · exact Acl.unbroken_of_all (rfl : ("#IMPORT_URL <".toList.all
            fun char => !Text.isLineBreak char) = true) char keyword
        · exact written.imports url inside char text
      · rw [List.mem_singleton.mp last]
        rfl

/-- Imports are comments to the client. -/
theorem contents_outputLines (acl : Acl platform) :
    (outputLines acl).filterMap content = modeLine acl.bypass ::
      ((sectionLines .bypass acl.bypassList).filterMap content ++
        ((sectionLines .proxy acl.proxyList).filterMap content ++ [])) := by
  have mode : content (modeLine acl.bypass) = some (modeLine acl.bypass) := by
    cases acl.bypass <;> decide
  have imports : (acl.urls.items.map (importLine platform)).filterMap content = [] := by
    rw [List.filterMap_eq_nil_iff]
    intro line member
    obtain ⟨url, _, rfl⟩ := List.mem_map.mp member
    rfl
  rw [outputLines, List.filterMap_cons_some mode, List.filterMap_append, List.filterMap_append,
    imports, List.append_assoc]

theorem sections_toString {acl : Acl platform} (written : Written acl) :
    sections .bypass ((bufLines acl.toString).filterMap content) =
      (acl.bypassList.filter isAscii).map (fun text => (Target.bypass, text)) ++
        (acl.proxyList.filter isAscii).map (fun text => (Target.proxy, text)) := by
  have mode : Acl.sectionOf (modeLine acl.bypass) = none ∧
      (Acl.modeOf (modeLine acl.bypass)).isSome = true := by
    cases acl.bypass <;> decide
  rw [bufLines_toString written, contents_outputLines, sections, mode.1]
  dsimp only
  rw [if_pos mode.2]
  obtain ⟨middle, first⟩ := sections_sectionLines written.bypass .bypass .bypass
    ((sectionLines .proxy acl.proxyList).filterMap content ++ [])
  obtain ⟨last, second⟩ := sections_sectionLines written.proxy middle .proxy []
  rw [first, second, sections, List.append_nil]

theorem rulesIn_map (target place : Target) (texts : List Text) :
    rulesIn crates target (texts.map fun text => (place, text)) =
      if place = target then texts.map (Rule.classify crates) else [] := by
  unfold rulesIn
  rw [List.filterMap_map]
  split
  · rename_i here
    simp only [Function.comp_def, if_pos here, List.filterMap_eq_map']
  · rename_i elsewhere
    simp only [Function.comp_def, if_neg elsewhere, List.filterMap_none]

/-- The client has the entries of the app that are ASCII, in the sections of the app. -/
theorem fileRules_toString {acl : Acl platform} (written : Written acl) :
    fileRules crates acl.toString .bypass =
        (acl.bypassList.filter isAscii).map (Rule.classify crates) ∧
      fileRules crates acl.toString .proxy =
        (acl.proxyList.filter isAscii).map (Rule.classify crates) ∧
      fileRules crates acl.toString .outbound = [] := by
  have split (target : Target) : fileRules crates acl.toString target =
      rulesIn crates target ((acl.bypassList.filter isAscii).map fun text => (.bypass, text)) ++
        rulesIn crates target ((acl.proxyList.filter isAscii).map fun text => (.proxy, text)) := by
    rw [fileRules, sections_toString written, rulesIn, List.filterMap_append]
    rfl
  refine ⟨?_, ?_, ?_⟩
  · rw [split, rulesIn_map, rulesIn_map, if_pos rfl, if_neg (by decide), List.append_nil]
  · rw [split, rulesIn_map, rulesIn_map, if_pos rfl, if_neg (by decide), List.nil_append]
  · rw [split, rulesIn_map, rulesIn_map, if_neg (by decide), if_neg (by decide), List.append_nil]

theorem modes_sectionLines {texts : List Text} (entries : ∀ text ∈ texts, NativeEntry text)
    (target : Target) :
    ((sectionLines target texts).filterMap content).filterMap Acl.modeOf = [] := by
  unfold sectionLines
  split
  · rfl
  · have header : content (headerOf target) = some (headerOf target) ∧
        Acl.modeOf (headerOf target) = none := by
      cases target <;> decide
    rw [List.filterMap_cons_some header.1, List.filterMap_cons_none header.2,
      filterMap_content entries, List.filterMap_eq_nil_iff]
    intro text member
    apply Acl.modeOf_of_not_bracketed
    rw [Acl.isBracketed, decide_eq_false_iff_not]
    exact (entries text (List.mem_filter.mp member).1).notHeader

theorem fileBypasses_toString {acl : Acl platform} (written : Written acl) :
    fileBypasses acl.toString = acl.bypass := by
  have mode : Acl.modeOf (modeLine acl.bypass) = some acl.bypass := by
    cases acl.bypass <;> decide
  rw [fileBypasses, bufLines_toString written, contents_outputLines,
    List.filterMap_cons_some mode, List.filterMap_append, modes_sectionLines written.bypass,
    List.append_nil, modes_sectionLines written.proxy]
  rfl

structure ReadsSubnet (platform : Platform Url) (crates : AclCrates) (subnet : Subnet) :
    Prop where
  entry : NativeEntry (Subnet.toString platform.toNumerics subnet)
  ascii : isAscii (Subnet.toString platform.toNumerics subnet) = true
  noBar : (Subnet.toString platform.toNumerics subnet).head? ≠ some '|'
  network : crates.parseNet (Subnet.toString platform.toNumerics subnet) = some subnet

/-- A host name of the app that the client does not shorten and does not read as a subnet. -/
structure ReadsName (crates : AclCrates) (text : Text) : Prop where
  native : Text.trim isWhitespace text = text
  notNet : crates.parseNet text = none

theorem classify_subnet {subnet : Subnet} (reads : ReadsSubnet platform crates subnet) :
    Rule.classify crates (Subnet.toString platform.toNumerics subnet) = .network subnet := by
  have unbarred (bars : Text) :
      ¬ ('|' :: bars).isPrefixOf (Subnet.toString platform.toNumerics subnet) = true := by
    intro begins
    obtain ⟨rest, whole⟩ := List.isPrefixOf_iff_prefix.mp begins
    exact reads.noBar (by rw [← whole]; rfl)
  have two : ¬ "||".toList.isPrefixOf (Subnet.toString platform.toNumerics subnet) = true :=
    unbarred ['|']
  have one : ¬ "|".toList.isPrefixOf (Subnet.toString platform.toNumerics subnet) = true :=
    unbarred []
  rw [Rule.classify, if_neg two, if_neg one, reads.network]

theorem classify_hostname {text : Text} (reads : ReadsName crates text) (ip : IpAddr) :
    (Rule.classify crates text).matchesIp ip = false := by
  unfold Rule.classify
  split
  · rfl
  · split
    · rfl
    · rw [reads.notNet]
      dsimp only
      unfold Rule.ofRegex
      cases treeSetRuleEquiv text with
      | none => rfl
      | some equivalent => cases equivalent <;> rfl

/-- What one list of the app comes to in the client: addresses go by its subnets, and hosts by
those of its host names that are ASCII. -/
theorem any_rules {subnets : List Subnet} {hostnames : List Text}
    (reads : ∀ subnet ∈ subnets, ReadsSubnet platform crates subnet)
    (clean : ∀ text ∈ hostnames, ReadsName crates text) :
    (∀ ip, (((subnets.map (Subnet.toString platform.toNumerics) ++ hostnames).filter
        isAscii).map (Rule.classify crates)).any (·.matchesIp ip) =
      subnets.any (Rule.netCovers · ip)) ∧
    (∀ host, (((subnets.map (Subnet.toString platform.toNumerics) ++ hostnames).filter
        isAscii).map (Rule.classify crates)).any (·.matchesHost crates host) =
      (hostnames.filter isAscii).any fun text =>
        (Rule.classify crates text).matchesHost crates host) := by
  have kept : (subnets.map (Subnet.toString platform.toNumerics)).filter isAscii =
      subnets.map (Subnet.toString platform.toNumerics) := by
    rw [List.filter_eq_self]
    intro text member
    obtain ⟨subnet, listed, rfl⟩ := List.mem_map.mp member
    exact (reads subnet listed).ascii
  have networks : (subnets.map (Subnet.toString platform.toNumerics)).map (Rule.classify crates) =
      subnets.map Rule.network := by
    rw [List.map_map]
    apply List.map_congr_left
    intro subnet member
    exact classify_subnet (reads subnet member)
  rw [List.filter_append, kept, List.map_append, networks]
  constructor
  · intro ip
    have none : ((hostnames.filter isAscii).map (Rule.classify crates)).any
        (·.matchesIp ip) = false := by
      rw [List.any_map, List.any_eq_false]
      intro text member
      rw [Function.comp_apply, classify_hostname (clean text (List.mem_filter.mp member).1)]
      exact Bool.false_ne_true
    rw [List.any_append, none, Bool.or_false, List.any_map]
    rfl
  · intro host
    have none : (subnets.map Rule.network).any (·.matchesHost crates host) = false := by
      rw [List.any_map, List.any_eq_false]
      intro subnet _
      exact Bool.false_ne_true
    rw [List.any_append, none, Bool.false_or, List.any_map]
    rfl

structure Kept (crates : AclCrates) (acl : Acl platform) : Prop where
  bypassHostnames : ∀ text ∈ acl.bypassHostnames, Hostname platform text ∧ ReadsName crates text
  proxyHostnames : ∀ text ∈ acl.proxyHostnames, Hostname platform text ∧ ReadsName crates text
  subnets : ∀ subnet ∈ acl.subnets, ReadsSubnet platform crates subnet
  imports : ∀ url ∈ acl.urls, ∀ char ∈ platform.urlText url, Text.isLineBreak char = false

theorem mem_of_mem_bypassSubnets {acl : Acl platform} :
    ∀ subnet ∈ Acl.bypassSubnets acl, subnet ∈ acl.subnets.items := by
  unfold Acl.bypassSubnets
  split
  · intro _ member
    cases member
  · exact fun _ member => member

theorem mem_of_mem_proxySubnets {acl : Acl platform} :
    ∀ subnet ∈ Acl.proxySubnets acl, subnet ∈ acl.subnets.items := by
  unfold Acl.proxySubnets
  split
  · exact fun _ member => member
  · intro _ member
    cases member

theorem written_of_kept {acl : Acl platform} (kept : Kept crates acl) : Written acl := by
  have entries {subnets : List Subnet} {hostnames : List Text}
      (inside : ∀ subnet ∈ subnets, subnet ∈ acl.subnets.items)
      (clean : ∀ text ∈ hostnames, Hostname platform text ∧ ReadsName crates text) :
      ∀ text ∈ subnets.map (Subnet.toString platform.toNumerics) ++ hostnames,
        NativeEntry text := by
    intro text member
    rcases List.mem_append.mp member with number | name
    · obtain ⟨subnet, listed, rfl⟩ := List.mem_map.mp number
      exact (kept.subnets subnet (inside subnet listed)).entry
    · exact ⟨(clean text name).1.toEntry, (clean text name).2.native⟩
  refine ⟨?_, ?_, kept.imports⟩
  · rw [Acl.bypassList_eq]
    exact entries mem_of_mem_bypassSubnets kept.bypassHostnames
  · rw [Acl.proxyList_eq]
    exact entries mem_of_mem_proxySubnets kept.proxyHostnames

/-- The client decides as the lists of the app say: an address goes through the server if the
mode bypasses everything and a subnet covers it, or the mode proxies everything and none does;
a host goes by the host names to be proxied first, then by those to be bypassed. Host names
that are not ASCII are left out. -/
theorem client_decides {acl : Acl platform} (kept : Kept crates acl) {access : AccessControl}
    (loaded : loadFromFile crates acl.toString = .ok access) :
    (∀ ip, access.checkIpInProxyList ip =
      (acl.bypass == acl.subnets.items.any (Rule.netCovers · ip))) ∧
    (∀ host, access.checkAsciiHostInProxyList crates host =
      if (acl.proxyHostnames.items.filter isAscii).any fun text =>
          (Rule.classify crates text).matchesHost crates (trimDots host) then some true
      else if (acl.bypassHostnames.items.filter isAscii).any fun text =>
          (Rule.classify crates text).matchesHost crates (trimDots host) then some false
      else none) := by
  have written := written_of_kept kept
  obtain ⟨_, rfl⟩ := loadFromFile_eq_ok_iff.mp loaded
  obtain ⟨bypass, proxy, _⟩ := @fileRules_toString _ _ crates _ written
  obtain ⟨bypassIp, bypassHost⟩ := any_rules
    (fun subnet member => kept.subnets subnet (mem_of_mem_bypassSubnets subnet member))
    (fun text member => (kept.bypassHostnames text member).2)
  obtain ⟨proxyIp, proxyHost⟩ := any_rules
    (fun subnet member => kept.subnets subnet (mem_of_mem_proxySubnets subnet member))
    (fun text member => (kept.proxyHostnames text member).2)
  refine ⟨fun ip => ?_, fun host => ?_⟩
  · rw [checkIp_ofRules, fileBypasses_toString written, bypass, proxy, Acl.bypassList_eq,
      Acl.proxyList_eq, bypassIp, proxyIp]
    unfold Acl.bypassSubnets Acl.proxySubnets
    cases acl.bypass with
    | true => simp
    | false => simp
  · rw [checkAsciiHost_ofRules, bypass, proxy, Acl.bypassList_eq, Acl.proxyList_eq, bypassHost,
      proxyHost]

/-! ## Custom rules -/

variable [DecidableEq Url]

theorem hostnames_customRules {file : Option Text} {acl : Acl platform}
    (custom : Acl.customRules platform file = some acl) :
    acl.bypass = true ∧ (∀ text ∈ acl.bypassHostnames.items, Hostname platform text) ∧
      ∀ text ∈ acl.proxyHostnames.items, Hostname platform text := by
  obtain ⟨read, found, made⟩ := Option.map_eq_some_iff.mp custom
  have clean : (∀ text ∈ read.bypassHostnames.items, Hostname platform text) ∧
      ∀ text ∈ read.proxyHostnames.items, Hostname platform text := by
    cases file with
    | some text => exact Acl.hostname_of_fromReader found
    | none =>
        cases found
        exact ⟨fun _ member => (by cases member), fun _ member => (by cases member)⟩
  rw [← made]
  split
  · rename_i bypass
    exact ⟨bypass, clean⟩
  · exact ⟨rfl, clean⟩

/-- Host names of imported documents are host names, too. -/
theorem hostnames_within {connect : Url → Option Text} {depth : Nat} {acl document : Acl platform}
    (reached : Within (Acl.Imports connect) depth acl document)
    (clean : (∀ text ∈ acl.bypassHostnames.items, Hostname platform text) ∧
      ∀ text ∈ acl.proxyHostnames.items, Hostname platform text) :
    (∀ text ∈ document.bypassHostnames.items, Hostname platform text) ∧
      ∀ text ∈ document.proxyHostnames.items, Hostname platform text := by
  induction reached with
  | here => exact clean
  | there first rest ih =>
      apply ih
      obtain ⟨url, _, text, _, read⟩ := first
      exact Acl.hostname_of_fromReader read

/-- A document on a chain of at most ten imports has a host name, in some list of it, that is
ASCII and about a host. -/
def Names (crates : AclCrates) (connect : Url → Option Text) (acl : Acl platform)
    (part : Acl platform → SortedList Text.utf16) (host : Text) : Prop :=
  ∃ document, Within (Acl.Imports connect) 10 acl document ∧
    ∃ text ∈ part document, isAscii text = true ∧
      (Rule.classify crates text).matchesHost crates (trimDots host) = true

theorem any_ascii_iff_names {names : SortedList Text.utf16} {connect : Url → Option Text}
    {acl : Acl platform} {part : Acl platform → SortedList Text.utf16}
    (described : ∀ text, text ∈ names ↔
      ∃ document, Within (Acl.Imports connect) 10 acl document ∧ text ∈ part document)
    (host : Text) :
    ((names.items.filter isAscii).any fun text =>
        (Rule.classify crates text).matchesHost crates (trimDots host)) = true ↔
      Names crates connect acl part host := by
  rw [List.any_eq_true]
  constructor
  · rintro ⟨text, member, holds⟩
    obtain ⟨listed, ascii⟩ := List.mem_filter.mp member
    obtain ⟨document, reached, inside⟩ := (described text).mp listed
    exact ⟨document, reached, text, inside, ascii, holds⟩
  · rintro ⟨document, reached, text, inside, ascii, holds⟩
    exact ⟨text, List.mem_filter.mpr ⟨(described text).mpr ⟨document, reached, inside⟩, ascii⟩,
      holds⟩

/-- The app keeps what it has flattened, as far as the client reads it. -/
theorem kept_of_flattened {connect : Url → Option Text} {acl result : Acl platform}
    (clean : (∀ text ∈ acl.bypassHostnames.items, Hostname platform text) ∧
      ∀ text ∈ acl.proxyHostnames.items, Hostname platform text)
    (described : Acl.Flattened connect 10 acl result)
    (reads : ∀ subnet ∈ result.subnets, ReadsSubnet platform crates subnet)
    (named : ∀ text, text ∈ result.bypassHostnames ∨ text ∈ result.proxyHostnames →
      ReadsName crates text) : Kept crates result := by
  refine ⟨fun text member => ⟨?_, named text (Or.inl member)⟩,
    fun text member => ⟨?_, named text (Or.inr member)⟩, reads, ?_⟩
  · obtain ⟨document, reached, inside⟩ := (described.bypassHostnames text).mp member
    exact (hostnames_within reached clean).1 text inside
  · obtain ⟨document, reached, inside⟩ := (described.proxyHostnames text).mp member
    exact (hostnames_within reached clean).2 text inside
  · intro url member
    rw [described.urls] at member
    cases member

/-- From the user's rules to the client: the rules are read, their imports are merged into
them, the result is saved, and the client loads it. An address then goes through the server
exactly if a subnet covers it that a document has on a chain of at most ten imports which all
bypass by default. A host is proxied, or else bypassed, exactly if a document on a chain of at
most ten imports of any modes has a host name about it that is ASCII. -/
theorem custom_rules_reach_client {file : Option Text} {acl result : Acl platform}
    {connect : Url → Option Text}
    (custom : Acl.customRules platform file = some acl)
    (flattened : acl.flatten connect 10 = some result)
    (reads : ∀ subnet ∈ result.subnets, ReadsSubnet platform crates subnet)
    (named : ∀ text, text ∈ result.bypassHostnames ∨ text ∈ result.proxyHostnames →
      ReadsName crates text)
    {access : AccessControl} (loaded : loadFromFile crates result.toString = .ok access) :
    (∀ ip, access.checkIpInProxyList ip = true ↔
      ∃ document, Within (Acl.Follows connect (· = true)) 10 acl document ∧
        ∃ subnet ∈ document.subnets, Rule.netCovers subnet ip = true) ∧
    (∀ host, access.checkAsciiHostInProxyList crates host = some true ↔
      Names crates connect acl Acl.proxyHostnames host) ∧
    (∀ host, access.checkAsciiHostInProxyList crates host = none ↔
      ¬ Names crates connect acl Acl.proxyHostnames host ∧
        ¬ Names crates connect acl Acl.bypassHostnames host) := by
  obtain ⟨bypass, clean⟩ := hostnames_customRules custom
  have listed : ∀ (left : Nat) (document : Acl platform) url,
      url ∈ document.urls.items ↔ url ∈ document.urls := fun _ _ _ => SortedList.mem_items
  rw [← Acl.flattenIn_items] at flattened
  have described := Acl.flattened_flattenIn listed flattened
  obtain ⟨addresses, hosts⟩ :=
    client_decides (kept_of_flattened clean described reads named) loaded
  have subnets := described.subnets
  rw [bypass] at subnets
  have proxied := @any_ascii_iff_names _ _ crates _ _ _ _ _ described.proxyHostnames
  have bypassed := @any_ascii_iff_names _ _ crates _ _ _ _ _ described.bypassHostnames
  refine ⟨fun ip => ?_, fun host => ?_, fun host => ?_⟩
  · rw [addresses, described.bypass, bypass, Bool.true_beq, List.any_eq_true]
    constructor
    · rintro ⟨subnet, member, covers⟩
      obtain ⟨document, reached, inside⟩ := (subnets subnet).mp member
      exact ⟨document, reached, subnet, inside, covers⟩
    · rintro ⟨document, reached, subnet, inside, covers⟩
      exact ⟨subnet, (subnets subnet).mpr ⟨document, reached, inside⟩, covers⟩
  · rw [hosts, ← proxied]
    split
    · rename_i found
      exact ⟨fun _ => found, fun _ => rfl⟩
    · rename_i missing
      refine ⟨fun same => ?_, fun found => absurd found missing⟩
      split at same <;> cases same
  · rw [hosts, ← proxied, ← bypassed]
    split
    · rename_i found
      exact ⟨fun same => (by cases same), fun missing => absurd found missing.1⟩
    · rename_i missing
      split
      · rename_i found
        exact ⟨fun same => (by cases same), fun missing => absurd found missing.2⟩
      · rename_i absent
        exact ⟨fun _ => ⟨missing, absent⟩, fun _ => rfl⟩

end File

def smallCrates : AclCrates :=
  { plainCrates with parseIpNet := Subnet.fromString Acl.smallPlatform.toNumerics }

def importText : Text := "[bypass_all]\n#IMPORT_URL <http://a/b>\n".toList

def domainText : Text := "[proxy_list]\n1.0.1.0/24\n||a.b\n".toList

theorem custom_rules_reach_client_domain :
    ∃ (acl result : Acl Acl.smallPlatform) (access : AccessControl),
      Acl.customRules Acl.smallPlatform (some importText) = some acl ∧
      acl.flatten (fun _ => some domainText) 10 = some result ∧
      loadFromFile smallCrates result.toString = .ok access ∧
      access.checkIpInProxyList Acl.officeAddress = true ∧
      access.checkAsciiHostInProxyList smallCrates "x.a.b".toList = some true := by
  have contents : ((Acl.customRules Acl.smallPlatform (some importText)).bind fun acl =>
      (acl.flatten (fun _ => some domainText) 10).bind fun result =>
        (Acl.fromReader Acl.smallPlatform domainText acl.bypass).map fun document =>
          (acl, result, document)).any (fun found =>
        found.1.urls.items = ["http://a/b".toList] ∧ found.2.1.bypassHostnames.items = [] ∧
          found.2.1.proxyHostnames.items = ["||a.b".toList] ∧
          found.2.1.subnets.items = [⟨Acl.officeAddress, 24, by decide⟩] ∧
          (loadFromFile smallCrates found.2.1.toString).isOk ∧ found.2.2.bypass = true ∧
          found.2.2.proxyHostnames.items = ["||a.b".toList] ∧
          found.2.2.subnets.items = [⟨Acl.officeAddress, 24, by decide⟩]) = true := by
    decide +kernel
  obtain ⟨⟨acl, result, document⟩, ran, checked⟩ := (Option.any_eq_true _ _).mp contents
  obtain ⟨first, custom, rest⟩ := Option.bind_eq_some_iff.mp ran
  obtain ⟨second, flattened, rest⟩ := Option.bind_eq_some_iff.mp rest
  obtain ⟨third, read, same⟩ := Option.map_eq_some_iff.mp rest
  cases same
  obtain ⟨urls, none, one, numbers, loads, bypass, names, nets⟩ := of_decide_eq_true checked
  dsimp only at urls none one numbers loads bypass names nets
  have reads : ∀ subnet ∈ result.subnets, ReadsSubnet Acl.smallPlatform smallCrates subnet := by
    intro subnet member
    have inside : subnet ∈ result.subnets.items := member
    rw [numbers] at inside
    rw [List.mem_singleton.mp inside]
    exact ⟨⟨⟨by decide, by decide, by decide, Acl.unbroken_of_all (by decide), by decide⟩,
      by decide⟩, by decide, by decide, by decide +kernel⟩
  have named : ∀ text, text ∈ result.bypassHostnames ∨ text ∈ result.proxyHostnames →
      ReadsName smallCrates text := by
    intro text member
    have inside : text ∈ result.bypassHostnames.items ++ result.proxyHostnames.items :=
      List.mem_append.mpr member
    rw [none, one] at inside
    rw [List.mem_singleton.mp inside]
    exact ⟨by decide, by decide⟩
  have url : "http://a/b".toList ∈ acl.urls.items := by
    rw [urls]
    exact List.mem_cons_self
  have imports : Acl.Imports (fun _ => some domainText) acl document :=
    ⟨_, url, domainText, rfl, read⟩
  have name : "||a.b".toList ∈ document.proxyHostnames.items := by
    rw [names]
    exact List.mem_cons_self
  have net : ⟨Acl.officeAddress, 24, by decide⟩ ∈ document.subnets.items := by
    rw [nets]
    exact List.mem_cons_self
  cases loaded : loadFromFile smallCrates result.toString with
  | error _ =>
      rw [loaded] at loads
      cases loads
  | ok access =>
      have decided := custom_rules_reach_client custom flattened reads named loaded
      refine ⟨acl, result, access, custom, flattened, loaded, ?_, ?_⟩
      · exact (decided.1 _).mpr ⟨document, .there ⟨imports, bypass⟩ .here, _, net, by decide⟩
      · exact (decided.2.1 "x.a.b".toList).mpr
          ⟨document, .there imports .here, "||a.b".toList, name, by decide, by decide⟩

end AccessControl

end Native

end AlienConnection
