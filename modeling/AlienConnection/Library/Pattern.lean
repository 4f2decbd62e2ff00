import AlienConnection.Library.Text
import Mathlib.Data.List.Forall2

/-!
# Patterns

A pattern is a sequence of runs of characters, which is what a regular expression without
alternatives amounts to. It is matched by backtracking. Every run takes as many characters as it
can and gives them back one by one while the runs behind it do not match. Of the places where
the pattern matches, the first one is found. What the runs of a match take is the match cut into
parts, one for each run.
-/

namespace AlienConnection.Library

structure Run where
  accepts : Char → Bool
  least : Nat
  most : Option Nat

namespace Run

def single (accepts : Char → Bool) : Run := ⟨accepts, 1, some 1⟩

def plus (accepts : Char → Bool) : Run := ⟨accepts, 1, none⟩

def star (accepts : Char → Bool) : Run := ⟨accepts, 0, none⟩

def fits (run : Run) (part : Text) : Bool :=
  part.all run.accepts && run.least ≤ part.length && run.most.all (part.length ≤ ·)

/-- The ways to take a run from the front of a text, the longest first. -/
def splits (run : Run) (text : Text) : List (Text × Text) :=
  ((List.range (text.length + 1)).reverse.map (text.splitAt ·)).filter (fun split =>
    run.fits split.1)

theorem mem_splits {run : Run} {text front back : Text} :
    (front, back) ∈ run.splits text ↔ front ++ back = text ∧ run.fits front = true := by
  rw [splits, List.mem_filter, List.mem_map]
  refine and_congr_left fun _ => ?_
  constructor
  · rintro ⟨count, _, same⟩
    rw [List.splitAt_eq, Prod.mk.injEq] at same
    rw [← same.1, ← same.2, List.take_append_drop]
  · rintro rfl
    refine ⟨front.length, ?_, ?_⟩
    · rw [List.mem_reverse, List.mem_range, List.length_append]
      omega
    · rw [List.splitAt_eq, List.take_left, List.drop_left]

theorem fits_single {accepts : Char → Bool} {part : Text} :
    (single accepts).fits part = true ↔ ∃ char, part = [char] ∧ accepts char = true := by
  constructor
  · intro fitted
    simp only [fits, single, Bool.and_eq_true, decide_eq_true_iff, Option.all_some] at fitted
    obtain ⟨⟨accepted, least⟩, most⟩ := fitted
    obtain ⟨char, rfl⟩ := List.length_eq_one_iff.mp (Nat.le_antisymm most (of_decide_eq_true least))
    exact ⟨char, rfl, by simpa using accepted⟩
  · rintro ⟨char, rfl, accepted⟩
    simp [fits, single, accepted]

theorem fits_plus {accepts : Char → Bool} {part : Text} :
    (plus accepts).fits part = true ↔ part ≠ [] ∧ ∀ char ∈ part, accepts char = true := by
  simp only [fits, plus, Bool.and_eq_true, decide_eq_true_iff, Option.all_none, and_true,
    List.all_eq_true, Nat.succ_le_iff, List.length_pos_iff]
  exact and_comm

theorem fits_star {accepts : Char → Bool} {part : Text} :
    (star accepts).fits part = true ↔ ∀ char ∈ part, accepts char = true := by
  simp [fits, star]

end Run

namespace Pattern

/-- The matches at the front of a text, in the order in which backtracking comes to them. -/
def matchesAt : List Run → Text → List (List Text)
  | [], _ => [[]]
  | run :: rest, text =>
      (run.splits text).flatMap fun split => (matchesAt rest split.2).map (split.1 :: ·)

def find (runs : List Run) : Text → Option (List Text)
  | [] => (matchesAt runs []).head?
  | char :: rest => (matchesAt runs (char :: rest)).head?.or (find runs rest)

/-- Each run is fitted by its part, and the parts are the front of the text. -/
def IsMatch (runs : List Run) (text : Text) (parts : List Text) : Prop :=
  List.Forall₂ (fun run part => run.fits part = true) runs parts ∧
    ∃ behind, parts.flatten ++ behind = text

theorem mem_matchesAt {runs : List Run} {text : Text} {parts : List Text} :
    parts ∈ matchesAt runs text ↔ IsMatch runs text parts := by
  induction runs generalizing text parts with
  | nil =>
      rw [matchesAt, List.mem_singleton, IsMatch, List.forall₂_nil_left_iff]
      refine ⟨fun same => ⟨same, text, by rw [same]; rfl⟩, fun isMatch => isMatch.1⟩
  | cons run rest ih =>
      simp only [matchesAt, List.mem_flatMap, List.mem_map, Prod.exists, IsMatch,
        List.forall₂_cons_left_iff]
      constructor
      · rintro ⟨front, back, split, later, member, rfl⟩
        obtain ⟨whole, fits⟩ := Run.mem_splits.mp split
        obtain ⟨others, behind, same⟩ := ih.mp member
        refine ⟨⟨front, later, fits, others, rfl⟩, behind, ?_⟩
        rw [List.flatten_cons, List.append_assoc, same, whole]
      · rintro ⟨⟨front, later, fits, others, rfl⟩, behind, same⟩
        rw [List.flatten_cons, List.append_assoc] at same
        exact ⟨front, later.flatten ++ behind, Run.mem_splits.mpr ⟨same, fits⟩, later,
          ih.mpr ⟨others, behind, rfl⟩, rfl⟩

/-- A match that is found is a match somewhere in the text. -/
theorem isMatch_of_find {runs : List Run} {text : Text} {parts : List Text}
    (found : find runs text = some parts) :
    ∃ skipped text', skipped ++ text' = text ∧ IsMatch runs text' parts := by
  induction text with
  | nil => exact ⟨[], [], rfl, mem_matchesAt.mp (List.mem_of_head? found)⟩
  | cons char rest ih =>
      rw [find, Option.or_eq_some_iff] at found
      rcases found with here | ⟨_, later⟩
      · exact ⟨[], char :: rest, rfl, mem_matchesAt.mp (List.mem_of_head? here)⟩
      · obtain ⟨skipped, text', whole, isMatch⟩ := ih later
        exact ⟨char :: skipped, text', by rw [List.cons_append, whole], isMatch⟩

/-- A pattern that matches at the front is found there. -/
theorem find_of_isMatch {runs : List Run} {text : Text} {parts : List Text}
    (isMatch : IsMatch runs text parts) :
    ∃ parts', find runs text = some parts' ∧ IsMatch runs text parts' := by
  cases first : (matchesAt runs text).head? with
  | none =>
      have empty := List.head?_eq_none_iff.mp first
      exact absurd (mem_matchesAt.mpr isMatch) (empty ▸ List.not_mem_nil)
  | some parts' =>
      refine ⟨parts', ?_, mem_matchesAt.mp (List.mem_of_head? first)⟩
      cases text with
      | nil => exact first
      | cons char rest => rw [find, first, Option.some_or]

/-- The place of the first character of a class does not depend on how a text is cut. -/
theorem append_cons_inj {marks : Char → Bool} {front front' back back' : Text}
    {char char' : Char} (free : ∀ char ∈ front, marks char = false)
    (free' : ∀ char ∈ front', marks char = false) (marked : marks char = true)
    (marked' : marks char' = true) (same : front ++ char :: back = front' ++ char' :: back') :
    front = front' ∧ char = char' ∧ back = back' := by
  induction front generalizing front' with
  | nil =>
      cases front' with
      | nil => exact ⟨rfl, List.cons_eq_cons.mp same⟩
      | cons other rest =>
          obtain ⟨rfl, _⟩ := List.cons_eq_cons.mp same
          rw [free' char List.mem_cons_self] at marked
          cases marked
  | cons first rest ih =>
      cases front' with
      | nil =>
          obtain ⟨rfl, _⟩ := List.cons_eq_cons.mp same
          rw [free first List.mem_cons_self] at marked'
          cases marked'
      | cons other rest' =>
          obtain ⟨rfl, tails⟩ := List.cons_eq_cons.mp same
          obtain ⟨rfl, others⟩ := ih (fun char member => free char (List.mem_cons_of_mem _ member))
            (fun char member => free' char (List.mem_cons_of_mem _ member)) tails
          exact ⟨rfl, others⟩

/-- Two words with a gap between them are found in one way only. The words have no character of
a class, and the gap has no other ones. -/
theorem words_inj {marks : Char → Bool} {first gap second first' gap' second' : Text}
    (free : ∀ char ∈ first ++ second, marks char = false)
    (free' : ∀ char ∈ first' ++ second', marks char = false)
    (marked : ∀ char ∈ gap, marks char = true) (marked' : ∀ char ∈ gap', marks char = true)
    (wide : gap' ≠ []) (nonempty : second ≠ []) (nonempty' : second' ≠ [])
    (same : first ++ (gap ++ second) = first' ++ (gap' ++ second')) :
    first = first' ∧ gap = gap' ∧ second = second' := by
  obtain ⟨char', rest', rfl⟩ := List.exists_cons_of_ne_nil wide
  cases gap with
  | nil =>
      have member : char' ∈ first ++ ([] ++ second) := by
        rw [same]
        exact List.mem_append_right _ List.mem_cons_self
      have unmarked := free char' member
      rw [marked' char' List.mem_cons_self] at unmarked
      cases unmarked
  | cons char rest =>
      obtain ⟨rfl, rfl, later⟩ := append_cons_inj
        (fun char member => free char (List.mem_append_left _ member))
        (fun char member => free' char (List.mem_append_left _ member))
        (marked char List.mem_cons_self) (marked' char' List.mem_cons_self) same
      obtain ⟨start, others, rfl⟩ := List.exists_cons_of_ne_nil nonempty
      obtain ⟨start', others', rfl⟩ := List.exists_cons_of_ne_nil nonempty'
      have ends := @append_cons_inj (fun char => !marks char) rest rest' others others' start start'
        (fun char member => by simp [marked char (List.mem_cons_of_mem _ member)])
        (fun char member => by simp [marked' char (List.mem_cons_of_mem _ member)])
        (by simp [free start (by simp)]) (by simp [free' start' (by simp)]) later
      obtain ⟨rfl, rfl, rfl⟩ := ends
      exact ⟨rfl, rfl, rfl⟩

end Pattern

end AlienConnection.Library
