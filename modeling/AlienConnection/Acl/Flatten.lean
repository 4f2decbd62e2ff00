import AlienConnection.Acl.Acl
import AlienConnection.Library.Gather

/-!
# Flattening imports

`flatten` replaces the URLs of a list by what the documents behind them contain, to
some depth. The imports may form cycles, and a document may be reached in several
ways; what counts is the chains of imports up to that depth. Host names are gathered
along all of them, subnets along those that stay in one mode.
-/

namespace AlienConnection.Acl

open Library Net

variable {Url : Type} {platform : Platform Url}

/-! ## What a merge unites -/

/-- A property of lists that a merge unites, as far as the modes of the merged lists
fit, and that has nothing to do with URLs. -/
structure Gathered (Fits : Bool → Prop) (Has : Acl platform → Prop) : Prop where
  cleared : ∀ acl : Acl platform, Has { acl with urls := .empty } ↔ Has acl
  merged : ∀ acl : Acl platform, Fits acl.bypass → ∀ document,
    Has (acl.merge document) ↔ Has acl ∨ (Fits document.bypass ∧ Has document)

theorem gathered_bypassHostnames (text : Text) :
    Gathered (fun _ => True) (fun acl : Acl platform => text ∈ acl.bypassHostnames) where
  cleared := fun _ => Iff.rfl
  merged := by
    intro acl _ document
    simp only [true_and]
    exact SortedList.mem_addAll

theorem gathered_proxyHostnames (text : Text) :
    Gathered (fun _ => True) (fun acl : Acl platform => text ∈ acl.proxyHostnames) where
  cleared := fun _ => Iff.rfl
  merged := by
    intro acl _ document
    simp only [true_and]
    exact SortedList.mem_addAll

theorem gathered_subnets (mode : Bool) (subnet : Subnet) :
    Gathered (· = mode) (fun acl : Acl platform => subnet ∈ acl.subnets) where
  cleared := fun _ => Iff.rfl
  merged := by
    rintro acl rfl document
    simp only [merge]
    split
    next same =>
      rw [SortedList.mem_addAll]
      exact or_congr_right ⟨fun member => ⟨same.symm, member⟩, And.right⟩
    next other =>
      constructor
      · exact Or.inl
      · rintro (member | ⟨same, _⟩)
        · exact member
        · exact absurd same.symm other

variable [DecidableEq Url]

/-! ## Chains of imports -/

/-- A document imports another one: the text behind a URL of it, read under its mode. -/
def Imports (connect : Url → Option Text) (importer document : Acl platform) : Prop :=
  ∃ url ∈ importer.urls, ∃ text, connect url = some text ∧
    fromReader platform text importer.bypass = some document

def Follows (connect : Url → Option Text) (Fits : Bool → Prop)
    (importer document : Acl platform) : Prop :=
  Imports connect importer document ∧ Fits document.bypass

theorem follows_true (connect : Url → Option Text) :
    Follows connect (fun _ => True) = (Imports connect : Acl platform → Acl platform → Prop) := by
  funext importer document
  simp [Follows]

/-- All documents are there and can be read that are imported by a document on a chain
shorter than the depth. -/
def Loads (connect : Url → Option Text) (depth : Nat) (acl : Acl platform) : Prop :=
  ∀ shorter < depth, ∀ importer, Within (Imports connect) shorter acl importer →
    ∀ url ∈ importer.urls, ∃ text, connect url = some text ∧
      ∃ document, fromReader platform text importer.bypass = some document

theorem imported_eq_some {connect : Url → Option Text} {bypass : Bool} {url : Url}
    {document : Acl platform} : imported connect bypass url = some document ↔
      ∃ text, connect url = some text ∧ fromReader platform text bypass = some document :=
  Option.bind_eq_some_iff

theorem loads_zero (connect : Url → Option Text) (acl : Acl platform) : Loads connect 0 acl :=
  fun shorter less => absurd less (Nat.not_lt_zero shorter)

theorem loads_succ_iff {connect : Url → Option Text} {depth : Nat} {acl : Acl platform} :
    Loads connect (depth + 1) acl ↔ ∀ url ∈ acl.urls, ∃ document : Acl platform,
      imported connect acl.bypass url = some document ∧ Loads connect depth document := by
  constructor
  · intro loads url member
    obtain ⟨text, found, document, read⟩ := loads 0 (Nat.succ_pos depth) acl .here url member
    refine ⟨document, imported_eq_some.mpr ⟨text, found, read⟩, ?_⟩
    intro shorter less importer reached
    exact loads (shorter + 1) (Nat.succ_lt_succ less) importer
      (.there ⟨url, member, text, found, read⟩ reached)
  · intro loads shorter less importer reached url member
    cases reached with
    | here =>
        obtain ⟨document, found, _⟩ := loads url member
        obtain ⟨text, connected, read⟩ := imported_eq_some.mp found
        exact ⟨text, connected, document, read⟩
    | there first rest =>
        obtain ⟨firstUrl, firstMember, firstRead⟩ := first
        obtain ⟨document, found, later⟩ := loads firstUrl firstMember
        cases Option.some.inj ((imported_eq_some.mpr firstRead).symm.trans found)
        exact later _ (Nat.lt_of_succ_lt_succ less) importer rest url member

/-- What a flattened list is: the mode stays, no URLs are left, and it has the host
names of all documents on chains up to the depth and the subnets of those on chains
along which every document has the mode of the list. -/
structure Flattened (connect : Url → Option Text) (depth : Nat) (acl result : Acl platform) :
    Prop where
  bypass : result.bypass = acl.bypass
  urls : result.urls = .empty
  bypassHostnames : ∀ text, text ∈ result.bypassHostnames ↔
    ∃ document, Within (Imports connect) depth acl document ∧ text ∈ document.bypassHostnames
  proxyHostnames : ∀ text, text ∈ result.proxyHostnames ↔
    ∃ document, Within (Imports connect) depth acl document ∧ text ∈ document.proxyHostnames
  subnets : ∀ subnet, subnet ∈ result.subnets ↔
    ∃ document, Within (Follows connect (· = acl.bypass)) depth acl document ∧
      subnet ∈ document.subnets

/-- There is only one flattened list. -/
theorem Flattened.unique {connect : Url → Option Text} {depth : Nat}
    {acl first second : Acl platform} (one : Flattened connect depth acl first)
    (other : Flattened connect depth acl second) : first = second := by
  apply Acl.ext
  · refine SortedList.ext_of_injective Text.utf16_injective ?_
    intro text
    exact (one.bypassHostnames text).trans (other.bypassHostnames text).symm
  · refine SortedList.ext_of_injective Text.utf16_injective ?_
    intro text
    exact (one.proxyHostnames text).trans (other.proxyHostnames text).symm
  · refine SortedList.ext_of_injective Subnet.sortKey_injective ?_
    intro subnet
    exact (one.subnets subnet).trans (other.subnets subnet).symm
  · exact one.urls.trans other.urls.symm
  · exact one.bypass.trans other.bypass.symm

/-! ## Any order of the URLs -/

/-- `flatten` with the URLs of every list in an order of one's own, which may also
depend on the depth that is left. -/
def flattenIn (order : Nat → Acl platform → List Url) (connect : Url → Option Text) :
    Nat → Acl platform → Option (Acl platform)
  | 0, acl => some { acl with urls := .empty }
  | depth + 1, acl =>
      ((order depth acl).foldlM (fun acl url =>
        ((imported connect acl.bypass url).bind (flattenIn order connect depth)).map acl.merge)
        acl).map (fun acl => { acl with urls := .empty })

theorem flattenIn_items (connect : Url → Option Text) (depth : Nat) :
    flattenIn (fun _ acl => acl.urls.items) connect depth =
      (flatten connect depth : Acl platform → Option (Acl platform)) := by
  induction depth with
  | zero => rfl
  | succ depth ih =>
      funext acl
      rw [flattenIn, flatten, ih]

section

variable {order : Nat → Acl platform → List Url} {connect : Url → Option Text}

/-- The loop over the URLs, for lists of one mode. -/
theorem merging (order : Nat → Acl platform → List Url) (connect : Url → Option Text)
    (depth : Nat) (mode : Bool) :
    Merging (fun (acl : Acl platform) url =>
        ((imported connect acl.bypass url).bind (flattenIn order connect depth)).map acl.merge)
      (fun url => (imported connect mode url).bind (flattenIn order connect depth)) merge
      (fun acl => acl.bypass = mode) where
  steps := by
    rintro acl rfl url
    rfl
  kept := by
    intro acl same document
    exact same

theorem bypass_flattenIn {depth : Nat} {acl result : Acl platform}
    (flattened : flattenIn order connect depth acl = some result) :
    result.bypass = acl.bypass := by
  cases depth with
  | zero =>
      cases flattened
      rfl
  | succ depth =>
      obtain ⟨last, ran, cleared⟩ := Option.map_eq_some_iff.mp flattened
      have same : last.bypass = acl.bypass :=
        (merging order connect depth acl.bypass).holds_last rfl ran
      rw [← cleared, same]

theorem urls_flattenIn {depth : Nat} {acl result : Acl platform}
    (flattened : flattenIn order connect depth acl = some result) : result.urls = .empty := by
  cases depth with
  | zero =>
      cases flattened
      rfl
  | succ depth =>
      obtain ⟨last, _, cleared⟩ := Option.map_eq_some_iff.mp flattened
      rw [← cleared]

variable (listed : ∀ depth (acl : Acl platform) url, url ∈ order depth acl ↔ url ∈ acl.urls)

include listed

/-- Flattening ends normally when all documents can be read. -/
theorem exists_flattenIn_iff (depth : Nat) (acl : Acl platform) :
    (∃ result, flattenIn order connect depth acl = some result) ↔ Loads connect depth acl := by
  induction depth generalizing acl with
  | zero => exact ⟨fun _ => loads_zero connect acl, fun _ => ⟨_, rfl⟩⟩
  | succ depth ih =>
      have cleared : (∃ result, flattenIn order connect (depth + 1) acl = some result) ↔
          ∃ last, (order depth acl).foldlM (fun (acl : Acl platform) url =>
            ((imported connect acl.bypass url).bind (flattenIn order connect depth)).map
              acl.merge) acl = some last := by
        simp [flattenIn]
      rw [cleared, (merging order connect depth acl.bypass).exists_iff _ rfl, loads_succ_iff]
      simp only [listed, Option.bind_eq_some_iff, ← ih]
      refine forall_congr' (fun url => forall_congr' (fun member => ?_))
      constructor
      · rintro ⟨result, document, found, flattened⟩
        exact ⟨document, found, result, flattened⟩
      · rintro ⟨document, found, result, flattened⟩
        exact ⟨result, document, found, flattened⟩

/-- What a flattened list has, some document has on a chain along which the modes fit. -/
theorem Gathered.has_flattenIn_iff {Fits : Bool → Prop} {Has : Acl platform → Prop}
    (gathered : Gathered Fits Has) {depth : Nat} {acl result : Acl platform}
    (fits : Fits acl.bypass)
    (flattened : flattenIn order connect depth acl = some result) :
    Has result ↔
      ∃ document, Within (Follows connect Fits) depth acl document ∧ Has document := by
  induction depth generalizing acl result with
  | zero =>
      cases flattened
      simp [gathered.cleared, Within.zero_iff]
  | succ depth ih =>
      have loads := (exists_flattenIn_iff listed (depth + 1) acl).mp ⟨result, flattened⟩
      obtain ⟨last, ran, cleared⟩ := Option.map_eq_some_iff.mp flattened
      have merged : ∀ state : Acl platform, state.bypass = acl.bypass → ∀ document,
          Has (state.merge document) ↔ Has state ∨ (Fits document.bypass ∧ Has document) := by
        intro state same document
        exact gathered.merged state (same ▸ fits) document
      rw [← cleared, gathered.cleared, Within.exists_succ_iff,
        (merging order connect depth acl.bypass).has_last_iff merged rfl ran]
      refine or_congr_right ?_
      constructor
      · rintro ⟨url, member, piece, produced, fitsPiece, has⟩
        obtain ⟨document, found, flattened⟩ := Option.bind_eq_some_iff.mp produced
        rw [bypass_flattenIn flattened] at fitsPiece
        exact ⟨document,
          ⟨⟨url, (listed depth acl url).mp member, imported_eq_some.mp found⟩, fitsPiece⟩,
          (ih fitsPiece flattened).mp has⟩
      · rintro ⟨document, ⟨⟨url, member, read⟩, fitsDocument⟩, has⟩
        have found := imported_eq_some.mpr read
        obtain ⟨other, otherFound, later⟩ := loads_succ_iff.mp loads url member
        cases Option.some.inj (found.symm.trans otherFound)
        obtain ⟨piece, flattened⟩ := (exists_flattenIn_iff listed depth document).mpr later
        refine ⟨url, (listed depth acl url).mpr member, piece,
          Option.bind_eq_some_iff.mpr ⟨document, found, flattened⟩, ?_, ?_⟩
        · rw [bypass_flattenIn flattened]
          exact fitsDocument
        · exact (ih fitsDocument flattened).mpr has

theorem flattened_flattenIn {depth : Nat} {acl result : Acl platform}
    (flattened : flattenIn order connect depth acl = some result) :
    Flattened connect depth acl result where
  bypass := bypass_flattenIn flattened
  urls := urls_flattenIn flattened
  bypassHostnames := by
    intro text
    rw [← follows_true]
    exact Gathered.has_flattenIn_iff listed (gathered_bypassHostnames text) trivial flattened
  proxyHostnames := by
    intro text
    rw [← follows_true]
    exact Gathered.has_flattenIn_iff listed (gathered_proxyHostnames text) trivial flattened
  subnets := by
    intro subnet
    exact Gathered.has_flattenIn_iff listed (gathered_subnets acl.bypass subnet) rfl flattened

theorem flattenIn_eq_some_iff {depth : Nat} {acl result : Acl platform} :
    flattenIn order connect depth acl = some result ↔
      Loads connect depth acl ∧ Flattened connect depth acl result := by
  constructor
  · intro flattened
    exact ⟨(exists_flattenIn_iff listed depth acl).mp ⟨result, flattened⟩,
      flattened_flattenIn listed flattened⟩
  · rintro ⟨loads, described⟩
    obtain ⟨other, flattened⟩ := (exists_flattenIn_iff listed depth acl).mpr loads
    rw [flattened, (flattened_flattenIn listed flattened).unique described]

end

/-- **Flattening.** It ends normally when all documents up to the depth can be read; the
result is the flattened list, and the order of the URLs makes no difference to it. -/
theorem flatten_flattened (connect : Url → Option Text) (depth : Nat) (acl : Acl platform) :
    ((∃ result, flatten connect depth acl = some result) ↔ Loads connect depth acl) ∧
      (∀ result, flatten connect depth acl = some result →
        Flattened connect depth acl result) ∧
      ∀ order : Nat → Acl platform → List Url,
        (∀ left document, (order left document).Perm document.urls.items) →
          flattenIn order connect depth acl = flatten connect depth acl := by
  have listedItems : ∀ (left : Nat) (document : Acl platform) url,
      url ∈ document.urls.items ↔ url ∈ document.urls := fun _ _ _ => SortedList.mem_items
  rw [← flattenIn_items]
  refine ⟨exists_flattenIn_iff listedItems depth acl, ?_, ?_⟩
  · intro result flattened
    exact flattened_flattenIn listedItems flattened
  · intro order permutes
    have listed : ∀ left (document : Acl platform) url,
        url ∈ order left document ↔ url ∈ document.urls := fun left document url =>
      (permutes left document).mem_iff
    apply Option.ext
    intro result
    exact (flattenIn_eq_some_iff listed).trans (flattenIn_eq_some_iff listedItems).symm

end AlienConnection.Acl
