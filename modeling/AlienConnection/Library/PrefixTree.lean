import AlienConnection.Library.LinkedMap

/-!
# Trees of words that stop at the first word

A tree that remembers words by the letters they begin with and answers whether some
remembered word is the beginning of a given one. What lies below the end of a word is never
looked at, so a word that continues another is not stored, and storing a word forgets those
that continue it.
-/

namespace AlienConnection.Library

inductive PrefixTree (κ : Type) where
  | node (included : Bool) (children : List (κ × PrefixTree κ))

namespace PrefixTree

variable {κ : Type} [DecidableEq κ]

def new : PrefixTree κ := .node false []

def included : PrefixTree κ → Bool
  | .node included _ => included

def children : PrefixTree κ → List (κ × PrefixTree κ)
  | .node _ children => children

def entry (letter : κ) (trees : List (κ × PrefixTree κ)) : PrefixTree κ :=
  (LinkedMap.get letter trees).getD new

def insert : List κ → List (κ × PrefixTree κ) → List (κ × PrefixTree κ)
  | [], trees => trees
  | letter :: rest, trees =>
      if (entry letter trees).included then trees
      else if rest.isEmpty then LinkedMap.put letter (.node true []) trees
      else LinkedMap.put letter (.node false (insert rest (entry letter trees).children)) trees

def contains : List κ → List (κ × PrefixTree κ) → Bool
  | [], _ => false
  | letter :: rest, trees =>
      match LinkedMap.get letter trees with
      | none => false
      | some tree => tree.included || contains rest tree.children

theorem contains_nil_trees (word : List κ) : contains word [] = false := by
  cases word <;> rfl

/-- A letter that leads nowhere is as good as one that leads to an empty tree. -/
theorem contains_cons (letter : κ) (rest : List κ) (trees : List (κ × PrefixTree κ)) :
    contains (letter :: rest) trees = ((entry letter trees).included ||
      contains rest (entry letter trees).children) := by
  rw [contains, entry]
  cases LinkedMap.get letter trees with
  | none => exact (contains_nil_trees rest).symm
  | some tree => rfl

theorem entry_put_self (letter : κ) (tree : PrefixTree κ) (trees : List (κ × PrefixTree κ)) :
    entry letter (LinkedMap.put letter tree trees) = tree := by
  rw [entry, LinkedMap.get_put_self, Option.getD_some]

theorem entry_put_other {letter other : κ} (differs : other ≠ letter) (tree : PrefixTree κ)
    (trees : List (κ × PrefixTree κ)) :
    entry other (LinkedMap.put letter tree trees) = entry other trees := by
  rw [entry, LinkedMap.get_put_other differs, entry]

/-- Only words that begin with a letter are concerned by what the letter leads to. -/
theorem contains_put {letter : κ} {tree : PrefixTree κ} {trees : List (κ × PrefixTree κ)}
    {path word : List κ}
    (below : ∀ rest, (tree.included = true ∨ contains rest tree.children = true) ↔
      contains (letter :: rest) trees = true ∨ path <+: rest) :
    contains word (LinkedMap.put letter tree trees) = true ↔
      contains word trees = true ∨ letter :: path <+: word := by
  cases word with
  | nil => simp [contains]
  | cons first rest =>
      rw [contains_cons, Bool.or_eq_true]
      by_cases same : first = letter
      · subst same
        rw [entry_put_self, below, List.prefix_cons_inj]
      · rw [entry_put_other same, ← Bool.or_eq_true, ← contains_cons]
        refine ⟨Or.inl, ?_⟩
        rintro (before | begins)
        · exact before
        · exact absurd (List.cons_prefix_cons.mp begins).1.symm same

/-- Inserting a word adds the words that begin with it, and no others. -/
theorem contains_insert {path : List κ} (some : path ≠ []) (word : List κ)
    (trees : List (κ × PrefixTree κ)) :
    contains word (insert path trees) = true ↔ contains word trees = true ∨ path <+: word := by
  induction path generalizing word trees with
  | nil => exact absurd rfl some
  | cons letter path ih =>
      rw [insert]
      split
      · -- What begins with the letter is contained already.
        rename_i already
        refine ⟨Or.inl, ?_⟩
        rintro (before | ⟨rest, rfl⟩)
        · exact before
        · rw [List.cons_append, contains_cons, already, Bool.true_or]
      · rename_i fresh
        rw [Bool.not_eq_true] at fresh
        split
        · rename_i last
          rw [List.isEmpty_iff.mp last]
          apply contains_put
          intro rest
          exact ⟨fun _ => Or.inr ⟨rest, rfl⟩, fun _ => Or.inl rfl⟩
        · rename_i more
          apply contains_put
          intro rest
          rw [contains_cons, fresh, Bool.false_or]
          change (false = true ∨ contains rest (insert path _) = true) ↔ _
          rw [ih (fun none => more (List.isEmpty_iff.mpr none))]
          exact or_iff_right Bool.false_ne_true

end PrefixTree

/-! ## Names made of parts -/

section Parts

variable {α : Type} [BEq α] [LawfulBEq α]

theorem cons_suffix_intercalate (separator : α) {front back : List (List α)} (some : front ≠ [])
    (more : back ≠ []) :
    separator :: [separator].intercalate back <:+ [separator].intercalate (front ++ back) := by
  induction front with
  | nil => exact absurd rfl some
  | cons first rest ih =>
      have joined : [separator].intercalate (first :: rest ++ back) =
          first ++ [separator] ++ [separator].intercalate (rest ++ back) :=
        List.intercalate_cons_of_ne_nil (List.append_ne_nil_of_right_ne_nil rest more)
      rw [joined]
      by_cases last : rest = []
      · rw [last, List.nil_append, List.append_assoc]
        exact List.suffix_append _ _
      · exact (ih last).trans (List.suffix_append _ _)

/-- The last parts of a name are the parts of another exactly if the name is the other one or
ends with it behind a separator. -/
theorem splitOn_suffix_iff {separator : α} {short long : List α} :
    short.splitOn separator <:+ long.splitOn separator ↔
      long = short ∨ separator :: short <:+ long := by
  constructor
  · rintro ⟨front, split⟩
    have joined : [separator].intercalate (front ++ short.splitOn separator) = long := by
      rw [split, List.intercalate_splitOn]
    by_cases none : front = []
    · rw [none, List.nil_append, List.intercalate_splitOn] at joined
      exact Or.inl joined.symm
    · right
      have ends := cons_suffix_intercalate separator none (List.splitOn_ne_nil separator short)
      rwa [joined, List.intercalate_splitOn] at ends
  · rintro (rfl | ⟨front, rfl⟩)
    · exact List.suffix_rfl
    · rw [List.splitOn_append_cons_self]
      exact List.suffix_append _ _

end Parts

end AlienConnection.Library
