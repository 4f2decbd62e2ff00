import AlienConnection.Acl.Acl
import Mathlib.Logic.Relation

/-!
# What the lines of a list mean

The mode of a list is that of the last mode line, and an entry belongs to the section of
the nearest header before it. This is all that the order of lines is for: entries may
change places within a section or be repeated, and mode lines may go anywhere as long as
the same one stays last.
-/

namespace AlienConnection.Acl

open Library Net

variable {Url : Type} {platform : Platform Url}

/-! ## Lines -/

def content (line : Text) : Text := Text.trim isWhitespace (Text.cut '#' line).1

def importOf (platform : Platform Url) (line : Text) : Option Text :=
  platform.networkAclParser ((Text.cut '#' line).2.getD [])

def contents (reader : Text) : List Text := (Text.lines reader).map content

def imports (platform : Platform Url) (reader : Text) : List Text :=
  (Text.lines reader).filterMap (importOf platform)

def modeOf (text : Text) : Option Bool :=
  if text = "[reject_all]".toList ∨ text = "[bypass_all]".toList then some true
  else if text = "[accept_all]".toList ∨ text = "[proxy_all]".toList then some false
  else none

def sectionOf (text : Text) : Option Target :=
  if text = "[outbound_block_list]".toList then some .outbound
  else if text = "[black_list]".toList ∨ text = "[bypass_list]".toList then some .bypass
  else if text = "[white_list]".toList ∨ text = "[proxy_list]".toList then some .proxy
  else none

def isBracketed (text : Text) : Bool := text.head? = some '['

def isEntry (text : Text) : Bool := text ≠ [] && !isBracketed text

def Known (text : Text) : Prop :=
  isBracketed text = true → (modeOf text).isSome ∨ (sectionOf text).isSome

/-- What the last of some lines tells that tells anything. -/
def latest {α : Type} (told : Text → Option α) (start : α) (texts : List Text) : α :=
  (texts.filterMap told).getLast?.getD start

def lastMode : Bool → List Text → Bool := latest modeOf

def lastSection : Target → List Text → Target := latest sectionOf

def firstSection (defaultBypass : Bool) : Target := if defaultBypass then .proxy else .bypass

def Belongs (start : Target) (texts : List Text) (target : Target) (text : Text) : Prop :=
  isEntry text = true ∧
    ∃ before after, texts = before ++ text :: after ∧ lastSection start before = target

/-- What a list contains, by its lines. -/
structure Determined (defaultBypass : Bool) (texts : List Text)
    (acl : Acl platform) : Prop where
  bypass : acl.bypass = lastMode defaultBypass texts
  bypassHostnames : ∀ text, text ∈ acl.bypassHostnames ↔
    Belongs (firstSection defaultBypass) texts .bypass text ∧
      Subnet.fromString platform.toNumerics text = none
  proxyHostnames : ∀ text, text ∈ acl.proxyHostnames ↔
    Belongs (firstSection defaultBypass) texts .proxy text ∧
      Subnet.fromString platform.toNumerics text = none
  subnets : ∀ subnet, subnet ∈ acl.subnets ↔
    ∃ text, Belongs (firstSection defaultBypass) texts
        (if acl.bypass then .proxy else .bypass) text ∧
      Subnet.fromString platform.toNumerics text = some subnet

/-! ## Sections -/

def entries : Target → List Text → List (Target × Text)
  | _, [] => []
  | target, text :: rest =>
      match sectionOf text with
      | some next => entries next rest
      | none =>
          if isEntry text then (target, text) :: entries target rest else entries target rest

section Latest

variable {α : Type} (told : Text → Option α)

theorem latest_cons (start : α) (text : Text) (rest : List Text) :
    latest told start (text :: rest) = latest told ((told text).getD start) rest := by
  rw [latest, latest, List.filterMap_cons]
  cases told text with
  | none => rfl
  | some value =>
      rw [List.getLast?_cons]
      cases (rest.filterMap told).getLast? <;> rfl

theorem latest_append (start : α) (first second : List Text) :
    latest told start (first ++ second) = latest told (latest told start first) second := by
  induction first generalizing start with
  | nil => rfl
  | cons text rest ih => rw [List.cons_append, latest_cons, latest_cons, ih]

theorem latest_of_none {texts : List Text} (none : ∀ text ∈ texts, told text = none) (start : α) :
    latest told start texts = start := by
  rw [latest, List.filterMap_eq_nil_iff.mpr none]
  rfl

/-- Behind a line that tells something it does not matter what was told before. -/
theorem latest_of_some {texts : List Text} (some : ∃ text ∈ texts, (told text).isSome)
    (first second : α) : latest told first texts = latest told second texts := by
  obtain ⟨text, member, given⟩ := some
  obtain ⟨value, found⟩ := Option.isSome_iff_exists.mp given
  have nonempty : texts.filterMap told ≠ [] := by
    apply List.ne_nil_of_mem
    exact List.mem_filterMap.mpr ⟨text, member, found⟩
  rw [latest, latest, List.getLast?_eq_some_getLast nonempty]
  rfl

end Latest

theorem entries_append (target : Target) (first second : List Text) :
    entries target (first ++ second) =
      entries target first ++ entries (lastSection target first) second := by
  induction first generalizing target with
  | nil => rfl
  | cons text rest ih =>
      rw [List.cons_append, entries, entries, lastSection, latest_cons]
      cases sectionOf text with
      | none =>
          dsimp only [Option.getD_none]
          split
          · rw [ih, List.cons_append]
            rfl
          · exact ih target
      | some next => exact ih next

/-- Headers and mode lines are in brackets. -/
theorem isBracketed_of_sectionOf {text : Text} {target : Target}
    (header : sectionOf text = some target) : isBracketed text = true := by
  unfold sectionOf at header
  split_ifs at header with outbound bypass proxy
  · rw [outbound]
    rfl
  · rcases bypass with rfl | rfl <;> rfl
  · rcases proxy with rfl | rfl <;> rfl

theorem isBracketed_of_modeOf {text : Text} {mode : Bool} (line : modeOf text = some mode) :
    isBracketed text = true := by
  unfold modeOf at line
  split_ifs at line with bypass proxy
  · rcases bypass with rfl | rfl <;> rfl
  · rcases proxy with rfl | rfl <;> rfl

theorem sectionOf_of_modeOf {text : Text} {mode : Bool} (line : modeOf text = some mode) :
    sectionOf text = none := by
  unfold modeOf at line
  split_ifs at line with bypass proxy
  · rcases bypass with rfl | rfl <;> rfl
  · rcases proxy with rfl | rfl <;> rfl

theorem modeOf_of_sectionOf {text : Text} {target : Target}
    (header : sectionOf text = some target) : modeOf text = none := by
  cases line : modeOf text with
  | none => rfl
  | some mode =>
      rw [sectionOf_of_modeOf line] at header
      cases header

theorem modeOf_of_not_bracketed {text : Text} (plain : isBracketed text = false) :
    modeOf text = none := by
  cases line : modeOf text with
  | none => rfl
  | some mode =>
      rw [isBracketed_of_modeOf line] at plain
      cases plain

theorem sectionOf_of_not_bracketed {text : Text} (plain : isBracketed text = false) :
    sectionOf text = none := by
  cases header : sectionOf text with
  | none => rfl
  | some target =>
      rw [isBracketed_of_sectionOf header] at plain
      cases plain

theorem not_bracketed_of_isEntry {text : Text} (entry : isEntry text = true) :
    isBracketed text = false := by
  rw [isEntry, Bool.and_eq_true, Bool.not_eq_true'] at entry
  exact entry.2

theorem entries_cons_entry (target : Target) {text : Text} (entry : isEntry text = true)
    (rest : List Text) : entries target (text :: rest) = (target, text) :: entries target rest := by
  rw [entries, sectionOf_of_not_bracketed (not_bracketed_of_isEntry entry)]
  exact if_pos entry

/-- The entries of some lines are those that stand in a section. -/
theorem mem_entries_iff {start target : Target} {texts : List Text} {text : Text} :
    (target, text) ∈ entries start texts ↔ Belongs start texts target text := by
  constructor
  · intro member
    induction texts generalizing start with
    | nil => cases member
    | cons first rest ih =>
        have later (next : Target) (same : (sectionOf first).getD start = next)
            (inside : (target, text) ∈ entries next rest) :
            Belongs start (first :: rest) target text := by
          obtain ⟨entry, before, after, split, place⟩ := ih inside
          refine ⟨entry, first :: before, after, by rw [split]; rfl, ?_⟩
          rw [lastSection, latest_cons, same]
          exact place
        rw [entries] at member
        cases header : sectionOf first with
        | some next =>
            rw [header] at member
            exact later next (by rw [header]; rfl) member
        | none =>
            have same : (sectionOf first).getD start = start := by rw [header]; rfl
            rw [header] at member
            dsimp only at member
            split at member
            next entry =>
              rcases List.mem_cons.mp member with here | inside
              · cases here
                exact ⟨entry, [], rest, rfl, rfl⟩
              · exact later start same inside
            next => exact later start same member
  · rintro ⟨entry, before, after, rfl, rfl⟩
    rw [entries_append, entries_cons_entry _ entry]
    exact List.mem_append_right _ List.mem_cons_self

/-! ## Rearranging -/

/-- Lines that trade places without a change of meaning: entries and empty lines that stand
next to each other, an entry that moves to another place of its section, an entry that is
repeated, a mode line that moves past others while the same one stays last, and comments
that import the same addresses. -/
inductive Rearranges (platform : Platform Url) (start : Target) : List Text → List Text → Prop
  | permute (before after : List Text) {first second : List Text} (same : first.Perm second)
      (plain : ∀ line ∈ first, isBracketed (content line) = false) :
      Rearranges platform start (before ++ first ++ after) (before ++ second ++ after)
  | carry (before middle after : List Text) {line : Text}
      (plain : isBracketed (content line) = false)
      (back : lastSection start ((before ++ middle).map content) =
        lastSection start (before.map content)) :
      Rearranges platform start (before ++ line :: middle ++ after)
        (before ++ middle ++ line :: after)
  | repeats (before after : List Text) {line : Text} (plain : isBracketed (content line) = false) :
      Rearranges platform start (before ++ line :: after) (before ++ line :: line :: after)
  | moves (before middle after : List Text) {line : Text} (mode : (modeOf (content line)).isSome)
      (last : (∀ other ∈ middle, modeOf (content other) = none) ∨
        ∃ other ∈ after, (modeOf (content other)).isSome) :
      Rearranges platform start (before ++ line :: middle ++ after)
        (before ++ middle ++ line :: after)
  | comments {first second : List Text} (texts : first.map content = second.map content)
      (imports : ∀ address, address ∈ first.filterMap (importOf platform) ↔
        address ∈ second.filterMap (importOf platform)) :
      Rearranges platform start first second

def Rearranged (platform : Platform Url) (start : Target) : List Text → List Text → Prop :=
  Relation.EqvGen (Rearranges platform start)

/-- What some texts have in common with a rearrangement of them. -/
structure SameMeaning (start : Target) (first second : List Text) : Prop where
  mode : ∀ bypass, lastMode bypass first = lastMode bypass second
  entries : ∀ entry, entry ∈ entries start first ↔ entry ∈ entries start second
  lines : ∀ text, text ∈ first ↔ text ∈ second

namespace SameMeaning

variable {start : Target} {first second third : List Text}

theorem refl (start : Target) (texts : List Text) : SameMeaning start texts texts :=
  ⟨fun _ => rfl, fun _ => Iff.rfl, fun _ => Iff.rfl⟩

theorem symm (same : SameMeaning start first second) : SameMeaning start second first :=
  ⟨fun bypass => (same.mode bypass).symm, fun entry => (same.entries entry).symm,
    fun text => (same.lines text).symm⟩

theorem trans (same : SameMeaning start first second) (later : SameMeaning start second third) :
    SameMeaning start first third :=
  ⟨fun bypass => (same.mode bypass).trans (later.mode bypass),
    fun entry => (same.entries entry).trans (later.entries entry),
    fun text => (same.lines text).trans (later.lines text)⟩

end SameMeaning

/-- Lines without brackets stay in the section before them. -/
theorem mem_entries_plain {texts : List Text} (plain : ∀ text ∈ texts, isBracketed text = false)
    {target : Target} {entry : Target × Text} :
    entry ∈ entries target texts ↔
      entry.1 = target ∧ entry.2 ∈ texts ∧ isEntry entry.2 = true := by
  induction texts with
  | nil => simp [entries]
  | cons text rest ih =>
      have later := ih (fun other member => plain other (List.mem_cons_of_mem _ member))
      rw [entries, sectionOf_of_not_bracketed (plain text List.mem_cons_self)]
      dsimp only
      rw [List.mem_cons]
      split
      next isIn =>
        rw [List.mem_cons, later]
        constructor
        · rintro (rfl | ⟨place, inside, entered⟩)
          · exact ⟨rfl, Or.inl rfl, isIn⟩
          · exact ⟨place, Or.inr inside, entered⟩
        · rintro ⟨place, here | inside, entered⟩
          · exact Or.inl (Prod.ext place here)
          · exact Or.inr ⟨place, inside, entered⟩
      next isOut =>
        rw [later]
        constructor
        · rintro ⟨place, inside, entered⟩
          exact ⟨place, Or.inr inside, entered⟩
        · rintro ⟨place, here | inside, entered⟩
          · rw [here] at entered
            exact absurd entered isOut
          · exact ⟨place, inside, entered⟩

section Plain

variable {texts : List Text} (plain : ∀ text ∈ texts, isBracketed text = false)

include plain

/-- Lines without brackets tell nothing about modes and sections. -/
theorem lastMode_plain (bypass : Bool) : lastMode bypass texts = bypass :=
  latest_of_none modeOf (fun text member => modeOf_of_not_bracketed (plain text member)) bypass

theorem lastSection_plain (target : Target) : lastSection target texts = target :=
  latest_of_none sectionOf
    (fun text member => sectionOf_of_not_bracketed (plain text member)) target

end Plain

theorem lastMode_append (bypass : Bool) (first second : List Text) :
    lastMode bypass (first ++ second) = lastMode (lastMode bypass first) second :=
  latest_append modeOf bypass first second

theorem lastSection_append (target : Target) (first second : List Text) :
    lastSection target (first ++ second) = lastSection (lastSection target first) second :=
  latest_append sectionOf target first second

variable {start : Target}

theorem sameMeaning_plain (before after : List Text) {first second : List Text}
    (same : ∀ text, text ∈ first ↔ text ∈ second)
    (plain : ∀ text ∈ first, isBracketed text = false) :
    SameMeaning start (before ++ first ++ after) (before ++ second ++ after) := by
  have plainSecond : ∀ text ∈ second, isBracketed text = false :=
    fun text member => plain text ((same text).mpr member)
  refine ⟨?_, ?_, ?_⟩
  · intro bypass
    simp only [lastMode_append, lastMode_plain plain, lastMode_plain plainSecond]
  · intro entry
    simp only [entries_append, List.mem_append, lastSection_append, lastSection_plain plain,
      lastSection_plain plainSecond, mem_entries_plain plain, mem_entries_plain plainSecond, same]
  · intro text
    simp only [List.mem_append, same]

theorem perm_moved (before middle after : List Text) (text : Text) :
    (before ++ text :: middle ++ after).Perm (before ++ middle ++ text :: after) := by
  rw [List.append_assoc, List.append_assoc]
  exact List.Perm.append_left before List.perm_middle.symm

/-- An entry moves to another place of its section. -/
theorem sameMeaning_carry (before middle after : List Text) {text : Text}
    (plain : isBracketed text = false)
    (back : lastSection start (before ++ middle) = lastSection start before) :
    SameMeaning start (before ++ text :: middle ++ after) (before ++ middle ++ text :: after) := by
  have single : ∀ other ∈ [text], isBracketed other = false := by
    intro other member
    rw [List.mem_singleton.mp member]
    exact plain
  have behind : before ++ text :: middle ++ after = before ++ [text] ++ middle ++ after := by simp
  have ahead : before ++ middle ++ text :: after = before ++ middle ++ [text] ++ after := by simp
  refine ⟨?_, ?_, fun other => (perm_moved before middle after text).mem_iff⟩
  · intro bypass
    rw [behind, ahead]
    simp only [lastMode_append, lastMode_plain single]
  · intro entry
    rw [lastSection_append] at back
    rw [behind, ahead]
    simp only [entries_append, List.mem_append, lastSection_append, lastSection_plain single, back,
      or_assoc]
    exact or_congr_right or_left_comm

/-- A mode line moves past other lines. -/
theorem sameMeaning_moves (before middle after : List Text) {text : Text}
    (mode : (modeOf text).isSome)
    (last : (∀ other ∈ middle, modeOf other = none) ∨ ∃ other ∈ after, (modeOf other).isSome) :
    SameMeaning start (before ++ text :: middle ++ after) (before ++ middle ++ text :: after) := by
  obtain ⟨value, line⟩ := Option.isSome_iff_exists.mp mode
  have notHeader := sectionOf_of_modeOf line
  have notEntry : isEntry text = false := by
    rw [isEntry, isBracketed_of_modeOf line, Bool.not_true, Bool.and_false]
  have skip (target : Target) (rest : List Text) :
      entries target (text :: rest) = entries target rest := by
    rw [entries, notHeader]
    exact if_neg (by rw [notEntry]; exact Bool.false_ne_true)
  have stay (target : Target) (rest : List Text) :
      lastSection target (text :: rest) = lastSection target rest := by
    rw [lastSection, latest_cons, notHeader]
    rfl
  refine ⟨?_, ?_, fun other => (perm_moved before middle after text).mem_iff⟩
  · intro bypass
    simp only [lastMode, latest_append, latest_cons, line, Option.getD_some]
    rcases last with quiet | loud
    · rw [latest_of_none modeOf quiet]
    · exact latest_of_some modeOf loud _ _
  · intro entry
    simp only [entries_append, lastSection_append, skip, stay]

theorem Rearranges.sameMeaning {first second : List Text}
    (step : Rearranges platform start first second) :
    SameMeaning start (first.map content) (second.map content) := by
  cases step with
  | permute before after same plain =>
      simp only [List.map_append]
      apply sameMeaning_plain
      · exact fun text => (same.map content).mem_iff
      · exact List.forall_mem_map.mpr plain
  | carry before middle after plain back =>
      simp only [List.map_append, List.map_cons] at back ⊢
      exact sameMeaning_carry _ _ _ plain back
  | @repeats before after line plain =>
      have single : SameMeaning start (before.map content ++ [content line] ++ after.map content)
          (before.map content ++ [content line, content line] ++ after.map content) := by
        apply sameMeaning_plain
        · simp
        · intro other member
          rw [List.mem_singleton.mp member]
          exact plain
      simpa using single
  | moves before middle after mode last =>
      simp only [List.map_append, List.map_cons]
      apply sameMeaning_moves _ _ _ mode
      simpa using last
  | comments texts imports =>
      rw [texts]
      exact SameMeaning.refl start _

/-- Rearranged lines import the same addresses. -/
theorem Rearranges.mem_imports {first second : List Text}
    (step : Rearranges platform start first second) (address : Text) :
    address ∈ first.filterMap (importOf platform) ↔
      address ∈ second.filterMap (importOf platform) := by
  have ofLines (same : ∀ line, line ∈ first ↔ line ∈ second) :
      address ∈ first.filterMap (importOf platform) ↔
        address ∈ second.filterMap (importOf platform) := by
    simp only [List.mem_filterMap, same]
  cases step with
  | permute before after same plain =>
      apply ofLines
      intro line
      simp only [List.mem_append, same.mem_iff]
  | carry before middle after plain back =>
      exact ofLines fun line => (perm_moved before middle after _).mem_iff
  | repeats before after plain =>
      apply ofLines
      simp
  | moves before middle after mode last =>
      exact ofLines fun line => (perm_moved before middle after _).mem_iff
  | comments texts imports => exact imports address

theorem Rearranged.sameMeaning {first second : List Text}
    (steps : Rearranged platform start first second) :
    SameMeaning start (first.map content) (second.map content) := by
  induction steps with
  | rel first second step => exact step.sameMeaning
  | refl texts => exact SameMeaning.refl start _
  | symm first second _ ih => exact ih.symm
  | trans first second third _ _ ih later => exact ih.trans later

theorem Rearranged.mem_imports {first second : List Text}
    (steps : Rearranged platform start first second) (address : Text) :
    address ∈ first.filterMap (importOf platform) ↔
      address ∈ second.filterMap (importOf platform) := by
  induction steps with
  | rel first second step => exact step.mem_imports address
  | refl texts => exact Iff.rfl
  | symm first second _ ih => exact ih.symm
  | trans first second third _ _ ih later => exact ih.trans later

/-! ## Reading -/

def hostnamesIn (platform : Platform Url) (target : Target) (found : List (Target × Text)) :
    List Text :=
  found.filterMap fun entry =>
    if entry.1 = target ∧ Subnet.fromString platform.toNumerics entry.2 = none then some entry.2
    else none

def subnetsIn (platform : Platform Url) (target : Target) (found : List (Target × Text)) :
    List Subnet :=
  found.filterMap fun entry =>
    if entry.1 = target then Subnet.fromString platform.toNumerics entry.2 else none

def Parsing.after (platform : Platform Url) (state : Parsing Url) (texts : List Text)
    (urls : List Url) : Parsing Url where
  bypass := lastMode state.bypass texts
  target := lastSection state.target texts
  bypassSubnets := state.bypassSubnets ++ subnetsIn platform .bypass (entries state.target texts)
  proxySubnets := state.proxySubnets ++ subnetsIn platform .proxy (entries state.target texts)
  bypassHostnames :=
    state.bypassHostnames ++ hostnamesIn platform .bypass (entries state.target texts)
  proxyHostnames := state.proxyHostnames ++ hostnamesIn platform .proxy (entries state.target texts)
  urls := state.urls ++ urls

theorem after_nil (state : Parsing Url) : state.after platform [] [] = state := by
  simp [Parsing.after, lastMode, lastSection, latest, entries, subnetsIn, hostnamesIn]

theorem after_after (state : Parsing Url) (first second : List Text) (urls more : List Url) :
    (state.after platform first urls).after platform second more =
      state.after platform (first ++ second) (urls ++ more) := by
  simp only [Parsing.after, lastMode, lastSection, latest_append, entries_append, subnetsIn,
    hostnamesIn, List.filterMap_append, List.append_assoc]

theorem after_bracketed (state : Parsing Url) {text : Text} (bracketed : isBracketed text = true) :
    state.after platform [text] [] =
      { state with
        bypass := (modeOf text).getD state.bypass
        target := (sectionOf text).getD state.target } := by
  have none : entries state.target [text] = [] := by
    rw [entries]
    cases sectionOf text with
    | some next => rfl
    | none =>
        refine if_neg ?_
        rw [isEntry, bracketed, Bool.not_true, Bool.and_false]
        exact Bool.false_ne_true
  simp [Parsing.after, none, subnetsIn, hostnamesIn, lastMode, lastSection, latest_cons,
    latest_of_none]

/-- A header that is known sets the mode or the section. -/
theorem header_eq (state : Parsing Url) (text : Text) :
    state.header text =
      if (modeOf text).isSome ∨ (sectionOf text).isSome then
        some { state with
          bypass := (modeOf text).getD state.bypass
          target := (sectionOf text).getD state.target }
      else none := by
  rw [Parsing.header]
  split
  next outbound =>
    have header : sectionOf text = some .outbound := if_pos outbound
    simp [header, modeOf_of_sectionOf header]
  next notOutbound =>
    split
    next bypass =>
      have header : sectionOf text = some .bypass := by
        rw [sectionOf, if_neg notOutbound, if_pos bypass]
      simp [header, modeOf_of_sectionOf header]
    next notBypass =>
      split
      next proxy =>
        have header : sectionOf text = some .proxy := by
          rw [sectionOf, if_neg notOutbound, if_neg notBypass, if_pos proxy]
        simp [header, modeOf_of_sectionOf header]
      next notProxy =>
        have header : sectionOf text = none := by
          rw [sectionOf, if_neg notOutbound, if_neg notBypass, if_neg notProxy]
        split
        next on =>
          have mode : modeOf text = some true := if_pos on
          simp [header, mode]
        next notOn =>
          split
          next off =>
            have mode : modeOf text = some false := by rw [modeOf, if_neg notOn, if_pos off]
            simp [header, mode]
          next notOff =>
            have mode : modeOf text = none := by rw [modeOf, if_neg notOn, if_neg notOff]
            simp [header, mode]

/-- An entry goes to the list of its section. -/
theorem after_entry (state : Parsing Url) {text : Text} (entry : isEntry text = true) :
    state.after platform [text] [] = state.entry platform text := by
  have plain := not_bracketed_of_isEntry entry
  have mode := modeOf_of_not_bracketed plain
  have header := sectionOf_of_not_bracketed plain
  obtain ⟨bypass, target, bypassSubnets, proxySubnets, bypassHostnames, proxyHostnames, urls⟩ :=
    state
  have found : entries target [text] = [(target, text)] := entries_cons_entry target entry []
  rw [Parsing.after, Parsing.entry]
  cases target <;>
    cases parsed : Subnet.fromString platform.toNumerics text <;>
    simp [found, parsed, mode, header, lastMode, lastSection, latest_of_none, subnetsIn,
      hostnamesIn]

theorem input_eq_some_iff {state next : Parsing Url} {text : Text} :
    state.input platform text = some next ↔ Known text ∧ next = state.after platform [text] [] := by
  have accepted {result : Parsing Url} (known : Known text)
      (same : state.after platform [text] [] = result) :
      some result = some next ↔ Known text ∧ next = state.after platform [text] [] := by
    rw [same, Option.some.injEq]
    exact ⟨fun done => ⟨known, done.symm⟩, fun both => both.2.symm⟩
  rw [Parsing.input]
  split
  next first =>
    have bracketed : isBracketed text = true := decide_eq_true first
    rw [header_eq]
    split
    next known => exact accepted (fun _ => known) (after_bracketed state bracketed)
    next unknown => exact ⟨nofun, fun both => absurd (both.1 bracketed) unknown⟩
  next first =>
    have known : Known text := fun bracketed => absurd (of_decide_eq_true bracketed) first
    split
    next empty =>
      apply accepted known
      rw [empty]
      exact after_nil state
    next nonempty =>
      apply accepted known
      apply after_entry
      simp [isEntry, isBracketed, nonempty, first]

/-- What one line does. -/
theorem line_eq_some_iff {state next : Parsing Url} {line : Text} :
    state.line platform true line = some next ↔
      Known (content line) ∧ (∀ text ∈ importOf platform line, (platform.url text).isSome) ∧
        next = state.after platform [content line]
          ((importOf platform line).toList.filterMap platform.url) := by
  simp only [Parsing.line, if_true]
  rw [← content, ← importOf]
  cases imported : importOf platform line with
  | none => simp [input_eq_some_iff]
  | some text =>
      cases parsed : platform.url text with
      | none => simp [parsed]
      | some url =>
          have added : ({ state with urls := state.urls ++ [url] } : Parsing Url).after platform
              [content line] [] = state.after platform [content line] [url] := by
            simp [Parsing.after]
          simp [parsed, input_eq_some_iff, added]

theorem foldlM_line_eq_some_iff {state final : Parsing Url} {lines : List Text} :
    lines.foldlM (Parsing.line platform true) state = some final ↔
      (∀ text ∈ lines.map content, Known text) ∧
        (∀ text ∈ lines.filterMap (importOf platform), (platform.url text).isSome) ∧
        final = state.after platform (lines.map content)
          ((lines.filterMap (importOf platform)).filterMap platform.url) := by
  induction lines generalizing state with
  | nil =>
      rw [List.foldlM_nil, List.map_nil, List.filterMap_nil, List.filterMap_nil, after_nil]
      constructor
      · intro done
        cases done
        exact ⟨fun _ none => (nomatch none), fun _ none => (nomatch none), rfl⟩
      · rintro ⟨-, -, rfl⟩
        rfl
  | cons line rest ih =>
      have cut : (line :: rest).filterMap (importOf platform) =
          (importOf platform line).toList ++ rest.filterMap (importOf platform) := by
        rw [List.filterMap_cons]
        cases importOf platform line <;> rfl
      rw [List.foldlM_cons, Option.bind_eq_bind, Option.bind_eq_some_iff, cut, List.map_cons,
        List.forall_mem_cons, List.forall_mem_append, List.filterMap_append]
      have valid_iff : (∀ text ∈ (importOf platform line).toList, (platform.url text).isSome) ↔
          ∀ text ∈ importOf platform line, (platform.url text).isSome := by
        simp only [Option.mem_toList, Option.mem_def]
      rw [valid_iff]
      constructor
      · rintro ⟨next, stepped, ran⟩
        obtain ⟨known, valid, rfl⟩ := line_eq_some_iff.mp stepped
        obtain ⟨knownRest, validRest, rfl⟩ := ih.mp ran
        exact ⟨⟨known, knownRest⟩, ⟨valid, validRest⟩, after_after _ _ _ _ _⟩
      · rintro ⟨⟨known, knownRest⟩, ⟨valid, validRest⟩, rfl⟩
        refine ⟨_, line_eq_some_iff.mpr ⟨known, valid, rfl⟩, ih.mpr ⟨knownRest, validRest, ?_⟩⟩
        exact (after_after state [content line] _ _ _).symm

theorem parse_eq_some_iff {reader : Text} {defaultBypass : Bool} {final : Parsing Url} :
    parse platform true reader defaultBypass = some final ↔
      (∀ text ∈ contents reader, Known text) ∧
        (∀ text ∈ imports platform reader, (platform.url text).isSome) ∧
        final = (Parsing.start defaultBypass).after platform (contents reader)
          ((imports platform reader).filterMap platform.url) :=
  foldlM_line_eq_some_iff

theorem mem_hostnamesIn {target : Target} {found : List (Target × Text)} {text : Text} :
    text ∈ hostnamesIn platform target found ↔
      (target, text) ∈ found ∧ Subnet.fromString platform.toNumerics text = none := by
  rw [hostnamesIn, List.mem_filterMap]
  constructor
  · rintro ⟨⟨place, other⟩, member, kept⟩
    split at kept
    next both =>
      cases kept
      obtain ⟨rfl, none⟩ := both
      exact ⟨member, none⟩
    next => cases kept
  · rintro ⟨member, none⟩
    exact ⟨(target, text), member, if_pos ⟨rfl, none⟩⟩

theorem mem_subnetsIn {target : Target} {found : List (Target × Text)} {subnet : Subnet} :
    subnet ∈ subnetsIn platform target found ↔
      ∃ text, (target, text) ∈ found ∧
        Subnet.fromString platform.toNumerics text = some subnet := by
  rw [subnetsIn, List.mem_filterMap]
  constructor
  · rintro ⟨⟨place, text⟩, member, kept⟩
    split at kept
    next same =>
      cases same
      exact ⟨text, member, kept⟩
    next => cases kept
  · rintro ⟨text, member, parsed⟩
    exact ⟨(target, text), member, (if_pos rfl).trans parsed⟩

/-! ## Lists -/

/-- Two lists agree in everything but the order of URLs that compare as equal. -/
structure Agrees (first second : Acl platform) : Prop where
  bypass : first.bypass = second.bypass
  bypassHostnames : first.bypassHostnames = second.bypassHostnames
  proxyHostnames : first.proxyHostnames = second.proxyHostnames
  subnets : first.subnets = second.subnets
  urls : ∀ url, url ∈ first.urls ↔ url ∈ second.urls

/-- Lines that mean the same determine the same list. -/
theorem Determined.agrees {defaultBypass : Bool} {texts others : List Text}
    {first second : Acl platform} (determined : Determined defaultBypass texts first)
    (determinedOther : Determined defaultBypass others second)
    (same : SameMeaning (firstSection defaultBypass) texts others)
    (urls : ∀ url, url ∈ first.urls ↔ url ∈ second.urls) : Agrees first second := by
  have belongs (target : Target) (text : Text) :
      Belongs (firstSection defaultBypass) texts target text ↔
        Belongs (firstSection defaultBypass) others target text := by
    rw [← mem_entries_iff, ← mem_entries_iff]
    exact same.entries _
  have mode : first.bypass = second.bypass := by
    rw [determined.bypass, determinedOther.bypass]
    exact same.mode _
  refine ⟨mode, ?_, ?_, ?_, urls⟩
  · apply SortedList.ext_of_injective Text.utf16_injective
    intro text
    rw [determined.bypassHostnames, determinedOther.bypassHostnames, belongs]
  · apply SortedList.ext_of_injective Text.utf16_injective
    intro text
    rw [determined.proxyHostnames, determinedOther.proxyHostnames, belongs]
  · apply SortedList.ext_of_injective Subnet.sortKey_injective
    intro subnet
    simp only [determined.subnets, determinedOther.subnets, belongs, mode]

section Lists

variable [DecidableEq Url]

/-- The list of a text whose lines are all accepted. -/
def meaning (platform : Platform Url) (defaultBypass : Bool) (texts : List Text)
    (urls : List Url) : Acl platform :=
  ofParsing ((Parsing.start defaultBypass).after platform texts urls)

theorem fromReader_eq_some_iff {reader : Text} {defaultBypass : Bool} {acl : Acl platform} :
    fromReader platform reader defaultBypass = some acl ↔
      (∀ text ∈ contents reader, Known text) ∧
        (∀ text ∈ imports platform reader, (platform.url text).isSome) ∧
        acl = meaning platform defaultBypass (contents reader)
          ((imports platform reader).filterMap platform.url) := by
  rw [fromReader, Option.map_eq_some_iff]
  constructor
  · rintro ⟨final, read, rfl⟩
    obtain ⟨known, valid, rfl⟩ := parse_eq_some_iff.mp read
    exact ⟨known, valid, rfl⟩
  · rintro ⟨known, valid, rfl⟩
    exact ⟨_, parse_eq_some_iff.mpr ⟨known, valid, rfl⟩, rfl⟩

/-- The list has what its lines mean. -/
theorem determined_meaning (defaultBypass : Bool) (texts : List Text) (urls : List Url) :
    Determined defaultBypass texts (meaning platform defaultBypass texts urls) where
  bypass := rfl
  bypassHostnames := by
    intro text
    rw [← mem_entries_iff, ← mem_hostnamesIn]
    exact SortedList.mem_addAll_empty
  proxyHostnames := by
    intro text
    rw [← mem_entries_iff, ← mem_hostnamesIn]
    exact SortedList.mem_addAll_empty
  subnets := by
    intro subnet
    simp only [← mem_entries_iff]
    rw [← mem_subnetsIn]
    refine SortedList.mem_addAll_empty.trans ?_
    rw [Parsing.subnets]
    have mode : (meaning platform defaultBypass texts urls).bypass =
        ((Parsing.start defaultBypass).after platform texts urls).bypass := rfl
    rw [mode]
    split
    · rfl
    · rfl

/-- A text that is accepted is read as its lines mean, and so is every rearrangement of it.
Where the comments stay in their order, or no two URLs compare as equal, the list is the
same. -/
theorem fromReader_determined {reader : Text} {defaultBypass : Bool} {acl : Acl platform}
    (read : fromReader platform reader defaultBypass = some acl) :
    Determined defaultBypass (contents reader) acl ∧
      ∀ other,
        Rearranged platform (firstSection defaultBypass) (Text.lines reader) (Text.lines other) →
        ∃ copy, fromReader platform other defaultBypass = some copy ∧ Agrees acl copy ∧
          (imports platform reader = imports platform other ∨
            (∀ first ∈ acl.urls, ∀ second ∈ acl.urls,
              platform.sortKey first = platform.sortKey second → first = second) →
            acl = copy) := by
  obtain ⟨known, valid, rfl⟩ := fromReader_eq_some_iff.mp read
  refine ⟨determined_meaning defaultBypass _ _, ?_⟩
  intro other rearranged
  have same : SameMeaning (firstSection defaultBypass) (contents reader) (contents other) :=
    rearranged.sameMeaning
  have sameImports (text : Text) : text ∈ imports platform reader ↔ text ∈ imports platform other :=
    rearranged.mem_imports text
  have copied : fromReader platform other defaultBypass =
      some (meaning platform defaultBypass (contents other)
        ((imports platform other).filterMap platform.url)) := by
    apply fromReader_eq_some_iff.mpr
    refine ⟨fun text member => ?_, fun text member => ?_, rfl⟩
    · exact known text ((same.lines text).mpr member)
    · exact valid text ((sameImports text).mpr member)
  have urls (url : Url) :
      url ∈ (meaning platform defaultBypass (contents reader)
        ((imports platform reader).filterMap platform.url)).urls ↔
      url ∈ (meaning platform defaultBypass (contents other)
        ((imports platform other).filterMap platform.url)).urls := by
    refine SortedList.mem_addAll_empty.trans (Iff.trans ?_ SortedList.mem_addAll_empty.symm)
    simp only [Parsing.after, Parsing.start, List.nil_append, List.mem_filterMap, sameImports]
  have agrees := (determined_meaning defaultBypass (contents reader) _).agrees
    (determined_meaning defaultBypass (contents other) _) same urls
  refine ⟨_, copied, agrees, fun alike => ?_⟩
  refine Acl.ext agrees.bypassHostnames agrees.proxyHostnames agrees.subnets ?_ agrees.bypass
  rcases alike with sameOrder | apart
  · rw [sameOrder]
    rfl
  · exact SortedList.ext_of_mem_iff urls apart

end Lists

def hostnamePlatform : Platform Text where
  parseNumericAddress _ := none
  hostAddress _ := []
  digit _ := none
  url text := some text
  urlText text := text
  host text := text
  port _ := 0
  file _ := []
  protocol _ := []
  space char := char = ' '
  lineTerminator _ := false

/-- Two entries may change places. -/
theorem fromReader_determined_swapped : ∃ acl : Acl hostnamePlatform,
    fromReader hostnamePlatform "a\nb\n[bypass_all]\n".toList false = some acl ∧
      Determined false ["a".toList, "b".toList, "[bypass_all]".toList] acl ∧
      fromReader hostnamePlatform "b\na\n[bypass_all]\n".toList false = some acl := by
  have lines : Text.lines "a\nb\n[bypass_all]\n".toList =
      ["a".toList, "b".toList, "[bypass_all]".toList] := by decide +kernel
  have otherLines : Text.lines "b\na\n[bypass_all]\n".toList =
      ["b".toList, "a".toList, "[bypass_all]".toList] := by decide +kernel
  have texts : contents "a\nb\n[bypass_all]\n".toList =
      ["a".toList, "b".toList, "[bypass_all]".toList] := by decide +kernel
  have noImports : imports hostnamePlatform "a\nb\n[bypass_all]\n".toList =
      imports hostnamePlatform "b\na\n[bypass_all]\n".toList := by decide +kernel
  have read : (fromReader hostnamePlatform "a\nb\n[bypass_all]\n".toList false).isSome = true := by
    decide +kernel
  obtain ⟨acl, accepted⟩ := Option.isSome_iff_exists.mp read
  obtain ⟨determined, rearranged⟩ := fromReader_determined accepted
  have swapped : Rearranged hostnamePlatform .bypass
      ["a".toList, "b".toList, "[bypass_all]".toList]
      ["b".toList, "a".toList, "[bypass_all]".toList] := by
    apply Relation.EqvGen.rel
    apply Rearranges.permute [] ["[bypass_all]".toList] (List.Perm.swap "b".toList "a".toList [])
    decide +kernel
  rw [← lines, ← otherLines] at swapped
  obtain ⟨copy, copied, -, same⟩ := rearranged _ swapped
  rw [← same (Or.inl noImports)] at copied
  rw [texts] at determined
  exact ⟨acl, accepted, determined, copied⟩

end AlienConnection.Acl
