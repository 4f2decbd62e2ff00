import Mathlib.Data.List.Basic
import Mathlib.Data.List.DropRight
import Mathlib.Data.List.Induction

/-!
# Texts

Texts as lists of characters: reading lines the way a buffered reader does,
cutting at the first separator, trimming, and the UTF-16 code units by which
strings are compared.
-/

namespace AlienConnection.Library

abbrev Text := List Char

namespace Text

/-! ## Letters -/

theorem toNat_of_isUpper {char : Char} (upper : char.isUpper = true) :
    65 ≤ char.toNat ∧ char.toNat ≤ 90 :=
  of_decide_eq_true upper

theorem toNat_of_isLower {char : Char} (lower : char.isLower = true) :
    97 ≤ char.toNat ∧ char.toNat ≤ 122 := by
  obtain ⟨least, most⟩ := Bool.and_eq_true_iff.mp lower
  exact ⟨of_decide_eq_true least, of_decide_eq_true most⟩

/-! ## Lines -/

def isLineBreak (char : Char) : Bool := char = '\n' || char = '\r'

/-- The lines of a text, with the beginning of the first one given. A carriage return
takes a line feed that follows it along; the last line need not be ended. -/
def linesFrom (start : Text) : Text → List Text
  | [] => if start = [] then [] else [start]
  | '\r' :: '\n' :: rest => start :: linesFrom [] rest
  | char :: rest =>
      if isLineBreak char then start :: linesFrom [] rest else linesFrom (start ++ [char]) rest

def lines (text : Text) : List Text := linesFrom [] text

/-- The lines of a text have no line breaks. -/
theorem not_break_of_mem_linesFrom {start text line : Text}
    (clean : ∀ char ∈ start, isLineBreak char = false) (member : line ∈ linesFrom start text) :
    ∀ char ∈ line, isLineBreak char = false := by
  fun_induction linesFrom start text with
  | case1 => cases member
  | case2 start nonempty =>
      rw [List.mem_singleton.mp member]
      exact clean
  | case3 start rest ih =>
      rcases List.mem_cons.mp member with here | later
      · rw [here]
        exact clean
      · exact ih (fun _ none => nomatch none) later
  | case4 start char rest _ isBreak ih =>
      rcases List.mem_cons.mp member with here | later
      · rw [here]
        exact clean
      · exact ih (fun _ none => nomatch none) later
  | case5 start char rest _ noBreak ih =>
      refine ih ?_ member
      intro other otherMember
      rcases List.mem_append.mp otherMember with before | here
      · exact clean other before
      · rw [List.mem_singleton.mp here]
        exact Bool.eq_false_iff.mpr noBreak

theorem not_break_of_mem_lines {text line : Text} (member : line ∈ lines text) :
    ∀ char ∈ line, isLineBreak char = false :=
  not_break_of_mem_linesFrom (fun _ none => absurd none List.not_mem_nil) member

/-- A line that ends in a line feed is read as it stands. -/
theorem linesFrom_append_newline {line : Text} (start rest : Text)
    (clean : ∀ char ∈ line, isLineBreak char = false) :
    linesFrom start (line ++ '\n' :: rest) = (start ++ line) :: linesFrom [] rest := by
  induction line generalizing start with
  | nil => simp [linesFrom, isLineBreak]
  | cons char tail ih =>
      have noBreak := clean char List.mem_cons_self
      have tailClean : ∀ other ∈ tail, isLineBreak other = false := fun other member =>
        clean other (List.mem_cons_of_mem _ member)
      rw [List.cons_append, linesFrom]
      · rw [noBreak, if_neg Bool.false_ne_true, ih _ tailClean, List.append_assoc]
        rfl
      · rintro rest rfl
        simp [isLineBreak] at noBreak

def unlines (lines : List Text) : Text := lines.flatMap (· ++ ['\n'])

/-- What is written line by line is read line by line. -/
theorem lines_unlines {texts : List Text}
    (clean : ∀ line ∈ texts, ∀ char ∈ line, isLineBreak char = false) :
    lines (unlines texts) = texts := by
  induction texts with
  | nil => rfl
  | cons line rest ih =>
      have written : unlines (line :: rest) = line ++ '\n' :: unlines rest := by
        simp [unlines]
      rw [written, lines, linesFrom_append_newline [] _ (clean line List.mem_cons_self)]
      exact congrArg (line :: ·) (ih (fun other member =>
        clean other (List.mem_cons_of_mem _ member)))

/-- Joining lines and ending the last one. -/
theorem intercalate_newline {texts : List Text} (nonempty : texts ≠ []) :
    ['\n'].intercalate texts ++ ['\n'] = unlines texts := by
  induction texts with
  | nil => exact absurd rfl nonempty
  | cons line rest ih =>
      cases rest with
      | nil => simp [unlines]
      | cons next more =>
          rw [List.intercalate_cons_cons, List.append_assoc, ih (List.cons_ne_nil _ _)]
          simp [unlines]

theorem suffix_intercalate (separator : Text) (fronts : List Text) (last : Text) :
    last <:+ separator.intercalate (fronts ++ [last]) := by
  induction fronts with
  | nil => simp
  | cons front rest ih =>
      rw [List.cons_append, List.intercalate_cons_of_ne_nil (by simp)]
      exact ih.trans (List.suffix_append _ _)

/-! ## Cutting -/

def cut (separator : Char) : Text → Text × Option Text
  | [] => ([], none)
  | char :: rest =>
      if char = separator then ([], some rest)
      else (char :: (cut separator rest).1, (cut separator rest).2)

theorem cut_of_not_mem {separator : Char} {text : Text} (absent : separator ∉ text) :
    cut separator text = (text, none) := by
  induction text with
  | nil => rfl
  | cons char rest ih =>
      rw [List.mem_cons, not_or] at absent
      obtain ⟨differs, absentRest⟩ := absent
      rw [cut, if_neg (fun same => differs same.symm), ih absentRest]

theorem cut_append {separator : Char} {front : Text} (back : Text)
    (absent : separator ∉ front) :
    cut separator (front ++ separator :: back) = (front, some back) := by
  induction front with
  | nil => exact if_pos rfl
  | cons char rest ih =>
      rw [List.mem_cons, not_or] at absent
      obtain ⟨differs, absentRest⟩ := absent
      rw [List.cons_append, cut, if_neg (fun same => differs same.symm), ih absentRest]

theorem mem_of_mem_cut {separator char : Char} {text : Text}
    (member : char ∈ (cut separator text).1) : char ∈ text ∧ char ≠ separator := by
  induction text with
  | nil => cases member
  | cons first rest ih =>
      rw [cut] at member
      split at member
      · cases member
      next differs =>
        rcases List.mem_cons.mp member with here | later
        · rw [here]
          exact ⟨List.mem_cons_self, differs⟩
        · exact ⟨List.mem_cons_of_mem _ (ih later).1, (ih later).2⟩

def cutLast (separator : Char) : Text → Option (Text × Text)
  | [] => none
  | char :: rest =>
      match cutLast separator rest with
      | some (front, back) => some (char :: front, back)
      | none => if char = separator then some ([], rest) else none

theorem cutLast_of_not_mem {separator : Char} {text : Text} (absent : separator ∉ text) :
    cutLast separator text = none := by
  induction text with
  | nil => rfl
  | cons char rest ih =>
      rw [List.mem_cons, not_or] at absent
      obtain ⟨differs, absentRest⟩ := absent
      simp only [cutLast, ih absentRest, if_neg (fun same : char = separator => differs same.symm)]

theorem cutLast_append {separator : Char} (front : Text) {back : Text}
    (absent : separator ∉ back) :
    cutLast separator (front ++ separator :: back) = some (front, back) := by
  induction front with
  | nil => simp only [List.nil_append, cutLast, cutLast_of_not_mem absent, if_pos]
  | cons char rest ih => simp only [List.cons_append, cutLast, ih]

theorem not_mem_of_cutLast {separator : Char} {text : Text}
    (uncut : cutLast separator text = none) : separator ∉ text := by
  induction text with
  | nil => exact List.not_mem_nil
  | cons char rest ih =>
      rw [cutLast] at uncut
      split at uncut
      next => cases uncut
      next later =>
        split at uncut
        next => cases uncut
        next differs =>
          rw [List.mem_cons, not_or]
          exact ⟨fun same => differs same.symm, ih later⟩

/-- What `cutLast` cuts. -/
theorem eq_of_cutLast {separator : Char} {text front back : Text}
    (found : cutLast separator text = some (front, back)) :
    text = front ++ separator :: back ∧ separator ∉ back := by
  induction text generalizing front with
  | nil => cases found
  | cons char rest ih =>
      rw [cutLast] at found
      split at found
      next inner behind later =>
        cases found
        obtain ⟨whole, absent⟩ := ih later
        exact ⟨congrArg (char :: ·) whole, absent⟩
      next uncut =>
        split at found
        next same =>
          cases found
          exact ⟨congrArg (· :: back) same, not_mem_of_cutLast uncut⟩
        next => cases found

/-- What `cut` cuts. -/
theorem eq_of_cut {separator : Char} {text back : Text}
    (found : (cut separator text).2 = some back) :
    text = (cut separator text).1 ++ separator :: back := by
  induction text with
  | nil => cases found
  | cons char rest ih =>
      rw [cut] at found ⊢
      split at found
      next same =>
        cases found
        rw [if_pos same, same]
        rfl
      next differs =>
        rw [if_neg differs]
        exact congrArg (char :: ·) (ih found)


/-- The pieces of a text do not contain the separator. -/
theorem not_mem_of_mem_splitOn {separator : Char} {text piece : Text}
    (listed : piece ∈ text.splitOn separator) : separator ∉ piece := by
  induction text generalizing piece with
  | nil =>
      rw [List.splitOn_nil, List.mem_singleton] at listed
      rw [listed]
      exact List.not_mem_nil
  | cons char rest ih =>
      rw [List.splitOn_cons_eq_if_modifyHead] at listed
      split at listed
      · rcases List.mem_cons.mp listed with here | later
        · rw [here]
          exact List.not_mem_nil
        · exact ih later
      next differs =>
        cases pieces : rest.splitOn separator with
        | nil => exact absurd pieces (List.splitOn_ne_nil separator rest)
        | cons first others =>
            rw [pieces] at ih listed
            rcases List.mem_cons.mp listed with here | later
            · rw [here, List.mem_cons, not_or]
              exact ⟨fun same => differs (by simp [same]), ih List.mem_cons_self⟩
            · exact ih (List.mem_cons_of_mem _ later)

/-! ## Tokens -/

def tokenize (delimiter : Char → Bool) : Text → List Text
  | [] => []
  | char :: rest =>
      match tokenize delimiter rest with
      | [] => [[char]]
      | token :: tokens =>
          if delimiter char || token.any delimiter then [char] :: token :: tokens
          else (char :: token) :: tokens

theorem mem_of_mem_tokenize {delimiter : Char → Bool} {text token : Text} {char : Char}
    (listed : token ∈ tokenize delimiter text) (member : char ∈ token) : char ∈ text := by
  induction text generalizing token with
  | nil => cases listed
  | cons first rest ih =>
      rw [tokenize] at listed
      split at listed
      · rw [List.mem_singleton.mp listed] at member
        rw [List.mem_singleton.mp member]
        exact List.mem_cons_self
      next next tokens cut =>
        rw [cut] at ih
        split at listed
        · rcases List.mem_cons.mp listed with here | later
          · rw [here] at member
            rw [List.mem_singleton.mp member]
            exact List.mem_cons_self
          · exact List.mem_cons_of_mem _ (ih later member)
        · rcases List.mem_cons.mp listed with here | later
          · rw [here] at member
            rcases List.mem_cons.mp member with same | inside
            · rw [same]
              exact List.mem_cons_self
            · exact List.mem_cons_of_mem _ (ih List.mem_cons_self inside)
          · exact List.mem_cons_of_mem _ (ih (List.mem_cons_of_mem _ later) member)

/-- A reader that takes a longer token as it takes the characters of the token reads the
tokens of a text as it reads its characters. -/
theorem foldl_tokenize {σ : Type} {delimiter : Char → Bool} {step : σ → Text → σ}
    (joins : ∀ state char token, delimiter char = false → token.any delimiter = false →
      step state (char :: token) = step (step state [char]) token)
    (text : Text) (state : σ) :
    (tokenize delimiter text).foldl step state =
      text.foldl (fun state char => step state [char]) state := by
  induction text generalizing state with
  | nil => rfl
  | cons char rest ih =>
      rw [tokenize, List.foldl_cons, ← ih]
      cases tokenize delimiter rest with
      | nil => rfl
      | cons token tokens =>
          dsimp only
          split
          · rfl
          next plain =>
            rw [Bool.or_eq_true, not_or, Bool.not_eq_true, Bool.not_eq_true] at plain
            rw [List.foldl_cons, List.foldl_cons, joins state char token plain.1 plain.2]

/-! ## Trimming -/

def trim (blank : Char → Bool) (text : Text) : Text :=
  (text.dropWhile blank).rdropWhile blank

theorem mem_of_mem_trim {blank : Char → Bool} {char : Char} {text : Text}
    (member : char ∈ trim blank text) : char ∈ text :=
  (List.dropWhile_sublist blank).subset ((List.rdropWhile_prefix blank _).subset member)

/-- A character that stays keeps what stands before it. -/
theorem rdropWhile_append_cons {drops : Char → Bool} {char : Char} (stays : drops char = false)
    (front back : Text) :
    (front ++ char :: back).rdropWhile drops = front ++ char :: back.rdropWhile drops := by
  induction back using List.reverseRecOn with
  | nil =>
      rw [List.rdropWhile_nil]
      exact List.rdropWhile_concat_neg drops front char (by rw [stays]; exact Bool.false_ne_true)
  | append_singleton back last ih =>
      rw [← List.cons_append, ← List.append_assoc, List.rdropWhile_concat, List.rdropWhile_concat]
      split
      · exact ih
      · simp

/-- A text without blanks stays as it is. -/
theorem trim_eq_self {blank : Char → Bool} {text : Text}
    (solid : ∀ char ∈ text, blank char = false) : trim blank text = text := by
  have front : text.dropWhile blank = text := by
    cases text with
    | nil => rfl
    | cons char rest =>
        exact List.dropWhile_cons_of_neg
          (by rw [solid char List.mem_cons_self]; exact Bool.false_ne_true)
  rw [trim, front, List.rdropWhile_eq_self_iff]
  intro nonempty
  rw [solid _ (List.getLast_mem nonempty)]
  exact Bool.false_ne_true

/-- A text without a blank at its ends stays as it is. -/
theorem trim_eq_self_of_ends {blank : Char → Bool} {text : Text}
    (first : ∀ char ∈ text.head?, blank char = false)
    (last : ∀ char ∈ text.getLast?, blank char = false) : trim blank text = text := by
  have front : text.dropWhile blank = text := by
    cases text with
    | nil => rfl
    | cons char rest =>
        exact List.dropWhile_cons_of_neg (by rw [first char rfl]; exact Bool.false_ne_true)
  rw [trim, front, List.rdropWhile_eq_self_iff]
  intro nonempty
  rw [last _ (List.getLast?_eq_getLast_of_ne_nil nonempty)]
  exact Bool.false_ne_true

/-- Trimming once is enough. -/
theorem trim_trim (blank : Char → Bool) (text : Text) :
    trim blank (trim blank text) = trim blank text := by
  have front : (trim blank text).dropWhile blank = trim blank text := by
    cases trimmed : trim blank text with
    | nil => rfl
    | cons char rest =>
        obtain ⟨tail, whole⟩ := List.rdropWhile_prefix blank (text.dropWhile blank)
        have start : (text.dropWhile blank).head? = some char := by
          rw [← whole]
          rw [trim] at trimmed
          rw [trimmed]
          rfl
        refine List.dropWhile_cons_of_neg ?_
        have refused := List.head?_dropWhile_not blank text
        rw [start] at refused
        rw [refused]
        exact Bool.false_ne_true
  rw [trim, front]
  exact List.rdropWhile_idempotent blank _

/-! ## UTF-16 -/

def units (char : Char) : List Nat :=
  if char.toNat < 0x10000 then [char.toNat]
  else [0xd800 + (char.toNat - 0x10000) / 0x400, 0xdc00 + (char.toNat - 0x10000) % 0x400]

def utf16 (text : Text) : List Nat := text.flatMap units

/-- The first code unit tells how long the encoding of a character is. -/
theorem units_cases (char : Char) :
    (units char = [char.toNat] ∧ (char.toNat < 0xd800 ∨ 0xdfff < char.toNat)) ∨
    (units char =
        [0xd800 + (char.toNat - 0x10000) / 0x400, 0xdc00 + (char.toNat - 0x10000) % 0x400] ∧
      0x10000 ≤ char.toNat ∧ char.toNat < 0x110000) := by
  have valid : char.toNat < 0xd800 ∨ (0xdfff < char.toNat ∧ char.toNat < 0x110000) := char.valid
  unfold units
  split
  next => exact Or.inl ⟨rfl, valid.imp_right And.left⟩
  next => exact Or.inr ⟨rfl, by omega, by omega⟩

/-- A character takes one or two code units. -/
theorem length_utf16_le_twice (text : Text) : (utf16 text).length ≤ 2 * text.length := by
  induction text with
  | nil => exact Nat.le_refl _
  | cons char rest ih =>
      have here : (units char).length ≤ 2 := by
        rcases units_cases char with ⟨encoded, _⟩ | ⟨encoded, _⟩ <;> rw [encoded] <;> simp
      rw [utf16, List.flatMap_cons, List.length_append, ← utf16, List.length_cons]
      omega

theorem utf16_injective : Function.Injective utf16 := by
  intro first
  induction first with
  | nil =>
      intro second same
      cases second with
      | nil => rfl
      | cons char rest =>
          rcases units_cases char with ⟨encoded, _⟩ | ⟨encoded, _, _⟩ <;>
            simp [utf16, encoded] at same
  | cons char rest ih =>
      intro second same
      cases second with
      | nil =>
          rcases units_cases char with ⟨encoded, _⟩ | ⟨encoded, _, _⟩ <;>
            simp [utf16, encoded] at same
      | cons other tail =>
          have step : ∀ {more}, units char ++ utf16 rest = units other ++ utf16 more →
              char = other ∧ utf16 rest = utf16 more := by
            intro more equal
            rcases units_cases char with ⟨encoded, range⟩ | ⟨encoded, low, high⟩ <;>
              rcases units_cases other with ⟨encoded', range'⟩ | ⟨encoded', low', high'⟩ <;>
              simp only [encoded, encoded', List.cons_append, List.nil_append,
                List.cons.injEq] at equal
            · exact ⟨Char.toNat_inj.mp equal.1, equal.2⟩
            · omega
            · omega
            · exact ⟨Char.toNat_inj.mp (by omega), equal.2.2⟩
          obtain ⟨sameChar, sameRest⟩ := step same
          rw [sameChar, ih sameRest]

end Text

end AlienConnection.Library
