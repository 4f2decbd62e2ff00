import AlienConnection.Library.Text

/-!
# Command lines

A command line is cut into tokens at blanks, quotes and backslashes, which are tokens
themselves, and read by a state machine with three states. A backslash takes the next
token as it is, in double quotes only another backslash or a double quote. A command line
is written without quotes: a backslash stands in front of every delimiter of an argument,
and the arguments are separated by blanks.
-/

namespace AlienConnection.Utils.Commandline

open Library

inductive State where
  | normal
  | inQuote
  | inDoubleQuote
  deriving DecidableEq

structure Reader where
  state : State := .normal
  result : List Text := []
  current : Text := []
  lastTokenHasBeenQuoted : Bool := false
  lastTokenIsSlash : Bool := false
  deriving DecidableEq

def isDelimiter (char : Char) : Bool :=
  char = '\\' || char = '"' || char = '\'' || char = ' '

namespace Reader

def append (reader : Reader) (text : Text) : Reader :=
  { reader with current := reader.current ++ text }

def endArgument (reader : Reader) : Reader :=
  if reader.lastTokenHasBeenQuoted || !reader.current.isEmpty then
    { reader with result := reader.result ++ [reader.current], current := [] }
  else reader

def quoted (reader : Reader) (token : Text) : Reader :=
  if token = ['\''] then { reader with lastTokenHasBeenQuoted := true, state := .normal }
  else reader.append token

def doubleQuoted (reader : Reader) (token : Text) : Reader :=
  if token = ['"'] then
    if reader.lastTokenIsSlash then { reader.append token with lastTokenIsSlash := false }
    else { reader with lastTokenHasBeenQuoted := true, state := .normal }
  else if token = ['\\'] then
    if reader.lastTokenIsSlash then { reader.append token with lastTokenIsSlash := false }
    else { reader with lastTokenIsSlash := true }
  else if reader.lastTokenIsSlash then
    { (reader.append ['\\']).append token with lastTokenIsSlash := false }
  else reader.append token

def plain (reader : Reader) (token : Text) : Reader :=
  if reader.lastTokenIsSlash then { reader.append token with lastTokenIsSlash := false }
  else if token = ['\\'] then { reader with lastTokenIsSlash := true }
  else if token = ['\''] then { reader with state := .inQuote }
  else if token = ['"'] then { reader with state := .inDoubleQuote }
  else if token = [' '] then reader.endArgument
  else reader.append token

def step (reader : Reader) (token : Text) : Reader :=
  match reader.state with
  | .inQuote => reader.quoted token
  | .inDoubleQuote => reader.doubleQuoted token
  | .normal => { reader.plain token with lastTokenHasBeenQuoted := false }

end Reader

/-- `translateCommandline`. The failure is the message of a check. -/
def translateCommandline (toProcess : Text) : Except String (List Text) :=
  let reader := (Text.tokenize isDelimiter toProcess).foldl Reader.step {}
  let ended := reader.endArgument
  if reader.state ≠ .normal then .error ("unbalanced quotes in " ++ String.ofList toProcess)
  else if reader.lastTokenIsSlash then
    .error ("escape character following nothing in " ++ String.ofList toProcess)
  else .ok ended.result

/-! ## Writing -/

def escape (char : Char) : Text := if isDelimiter char then ['\\', char] else [char]

def appendArgument (result arg : Text) : Text :=
  (if result.isEmpty then result else result ++ [' ']) ++ arg.flatMap escape

def toString : Option (List Text) → Text
  | none => []
  | some args => args.foldl appendArgument []

/-! ## Characters -/

structure Reader.Within (allowed : Char → Prop) (reader : Reader) : Prop where
  result : ∀ argument ∈ reader.result, ∀ char ∈ argument, allowed char
  current : ∀ char ∈ reader.current, allowed char

namespace Reader.Within

variable {allowed : Char → Prop} {reader : Reader} {token : Text}

theorem append (within : reader.Within allowed) (fine : ∀ char ∈ token, allowed char) :
    (reader.append token).Within allowed where
  result := within.result
  current := by
    intro char member
    rcases List.mem_append.mp member with before | here
    · exact within.current char before
    · exact fine char here

theorem endArgument (within : reader.Within allowed) : reader.endArgument.Within allowed := by
  rw [Reader.endArgument]
  split
  · refine ⟨?_, fun _ none => absurd none List.not_mem_nil⟩
    intro argument listed
    rcases List.mem_append.mp listed with before | here
    · exact within.result argument before
    · rw [List.mem_singleton.mp here]
      exact within.current
  · exact within

theorem quoted (within : reader.Within allowed) (fine : ∀ char ∈ token, allowed char) :
    (reader.quoted token).Within allowed := by
  rw [Reader.quoted]
  split
  · exact ⟨within.result, within.current⟩
  · exact within.append fine

theorem doubleQuoted (within : reader.Within allowed) (slash : allowed '\\')
    (fine : ∀ char ∈ token, allowed char) : (reader.doubleQuoted token).Within allowed := by
  have appended := within.append fine
  have slashed : (reader.append ['\\']).Within allowed := by
    apply within.append
    intro char member
    rw [List.mem_singleton.mp member]
    exact slash
  have both := slashed.append fine
  rw [Reader.doubleQuoted]
  split
  · split
    · exact ⟨appended.result, appended.current⟩
    · exact ⟨within.result, within.current⟩
  · split
    · split
      · exact ⟨appended.result, appended.current⟩
      · exact ⟨within.result, within.current⟩
    · split
      · exact ⟨both.result, both.current⟩
      · exact appended

theorem plain (within : reader.Within allowed) (fine : ∀ char ∈ token, allowed char) :
    (reader.plain token).Within allowed := by
  have appended := within.append fine
  rw [Reader.plain]
  split
  · exact ⟨appended.result, appended.current⟩
  · split
    · exact ⟨within.result, within.current⟩
    · split
      · exact ⟨within.result, within.current⟩
      · split
        · exact ⟨within.result, within.current⟩
        · split
          · exact within.endArgument
          · exact appended

theorem step (within : reader.Within allowed) (slash : allowed '\\')
    (fine : ∀ char ∈ token, allowed char) : (reader.step token).Within allowed := by
  rw [Reader.step]
  split
  · exact within.quoted fine
  · exact within.doubleQuoted slash fine
  · have read := within.plain fine
    exact ⟨read.result, read.current⟩

theorem foldl (within : reader.Within allowed) (slash : allowed '\\') {tokens : List Text}
    (fine : ∀ token ∈ tokens, ∀ char ∈ token, allowed char) :
    (tokens.foldl Reader.step reader).Within allowed := by
  induction tokens generalizing reader with
  | nil => exact within
  | cons token rest ih =>
      apply ih (within.step slash (fine token List.mem_cons_self))
      exact fun other listed => fine other (List.mem_cons_of_mem _ listed)

end Reader.Within

/-- The arguments have no other characters than the command line, backslashes apart. -/
theorem translateCommandline_within (allowed : Char → Prop) (slash : allowed '\\') {text : Text}
    (fine : ∀ char ∈ text, allowed char) {arguments : List Text}
    (cracked : translateCommandline text = .ok arguments) :
    ∀ argument ∈ arguments, ∀ char ∈ argument, allowed char := by
  have start : ({} : Reader).Within allowed :=
    ⟨fun _ none => absurd none List.not_mem_nil, fun _ none => absurd none List.not_mem_nil⟩
  have tokens : ∀ token ∈ Text.tokenize isDelimiter text, ∀ char ∈ token, allowed char :=
    fun _ listed char member => fine char (Text.mem_of_mem_tokenize listed member)
  have read := start.foldl slash tokens
  simp only [translateCommandline] at cracked
  split at cracked
  · cases cracked
  · split at cracked
    · cases cracked
    · cases cracked
      exact read.endArgument.result

/-! ## Reading back -/

namespace Reader

/-- A token without delimiters is read as its characters are. -/
theorem step_cons (reader : Reader) (char : Char) (token : Text)
    (plain : isDelimiter char = false) (rest : token.any isDelimiter = false) :
    reader.step (char :: token) = (reader.step [char]).step token := by
  have apart : ∀ delimiter, isDelimiter delimiter = true →
      char ≠ delimiter ∧ token ≠ [delimiter] := by
    intro delimiter isOne
    constructor
    · rintro rfl
      exact Bool.false_ne_true (plain.symm.trans isOne)
    · rintro rfl
      simp [isOne] at rest
  have slash := apart '\\' rfl
  have quote := apart '\'' rfl
  have doubleQuote := apart '"' rfl
  have blank := apart ' ' rfl
  obtain ⟨state, result, current, hasBeenQuoted, isSlash⟩ := reader
  cases state <;> cases isSlash <;>
    simp [step, Reader.plain, quoted, doubleQuoted, append, slash, quote, doubleQuote, blank]

end Reader

def readChars (reader : Reader) (text : Text) : Reader :=
  text.foldl (fun reader char => reader.step [char]) reader

theorem readChars_append (reader : Reader) (front back : Text) :
    readChars reader (front ++ back) = readChars (readChars reader front) back :=
  List.foldl_append

/-- Between two tokens of what `toString` writes: no quote is open and no backslash waits. -/
def between (result : List Text) (current : Text) : Reader :=
  { result := result, current := current }

theorem readChars_escape (result : List Text) (current : Text) (char : Char) :
    readChars (between result current) (escape char) = between result (current ++ [char]) := by
  rw [escape]
  split
  next isOne => simp [readChars, Reader.step, Reader.plain, Reader.append, between]
  next other =>
    have apart : ∀ delimiter, isDelimiter delimiter = true → char ≠ delimiter := by
      rintro delimiter isOne rfl
      exact other isOne
    simp [readChars, Reader.step, Reader.plain, Reader.append, between, apart '\\' rfl,
      apart '\'' rfl, apart '"' rfl, apart ' ' rfl]

/-- An escaped argument is read as the argument, whatever it contains. -/
theorem readChars_flatMap_escape (result : List Text) (current arg : Text) :
    readChars (between result current) (arg.flatMap escape) = between result (current ++ arg) := by
  induction arg generalizing current with
  | nil =>
      rw [List.append_nil]
      rfl
  | cons char rest ih =>
      rw [List.flatMap_cons, readChars_append, readChars_escape, ih, List.append_assoc]
      rfl

/-- A blank ends an argument. -/
theorem readChars_blank (result : List Text) {current : Text} (nonempty : current ≠ []) :
    readChars (between result current) [' '] = between (result ++ [current]) [] := by
  simp [readChars, Reader.step, Reader.plain, Reader.endArgument, between, nonempty]

theorem flatMap_escape_ne_nil {arg : Text} (nonempty : arg ≠ []) : arg.flatMap escape ≠ [] := by
  cases arg with
  | nil => exact absurd rfl nonempty
  | cons char rest =>
      rw [List.flatMap_cons, escape]
      split <;> exact List.cons_ne_nil _ _

/-- After some arguments and one more, the last one is still being read. -/
theorem readChars_foldl (args : List Text) (last : Text)
    (nonempty : ∀ arg ∈ args ++ [last], arg ≠ []) :
    (args ++ [last]).foldl appendArgument [] ≠ [] ∧
      readChars {} ((args ++ [last]).foldl appendArgument []) = between args last := by
  induction args using List.reverseRecOn generalizing last with
  | nil =>
      have written := flatMap_escape_ne_nil (nonempty last List.mem_cons_self)
      exact ⟨written, readChars_flatMap_escape [] [] last⟩
  | append_singleton args before ih =>
      have earlier : ∀ arg ∈ args ++ [before], arg ≠ [] := fun arg listed =>
        nonempty arg (List.mem_append_left _ listed)
      obtain ⟨written, read⟩ := ih before earlier
      have separated : (args ++ [before] ++ [last]).foldl appendArgument [] =
          (args ++ [before]).foldl appendArgument [] ++ [' '] ++ last.flatMap escape := by
        rw [List.foldl_append, List.foldl_cons, List.foldl_nil, appendArgument,
          if_neg (by simpa using written)]
      rw [separated]
      refine ⟨by simp, ?_⟩
      rw [readChars_append, readChars_append, read,
        readChars_blank args (earlier before (by simp)), readChars_flatMap_escape,
        List.nil_append]

/-- **Command lines round-trip.** Arguments that are not empty are read back as they were
written, whatever blanks, backslashes and quotes they contain. -/
theorem translateCommandline_toString (args : List Text) (nonempty : ∀ arg ∈ args, arg ≠ []) :
    translateCommandline (toString (some args)) = .ok args := by
  rcases List.eq_nil_or_concat' args with rfl | ⟨front, last, rfl⟩
  · rfl
  · obtain ⟨_, read⟩ := readChars_foldl front last nonempty
    have tokens : (Text.tokenize isDelimiter (toString (some (front ++ [last])))).foldl Reader.step
        {} = between front last := by
      rw [Text.foldl_tokenize Reader.step_cons]
      exact read
    have present : last ≠ [] := nonempty last (by simp)
    simp [translateCommandline, tokens, between, Reader.endArgument, present]

/-- An argument with a blank, one with both quotes, and one with backslashes. -/
theorem translateCommandline_toString_quotes :
    translateCommandline (toString (some ["a b".toList, "'\"".toList, "\\ \\".toList])) =
      .ok ["a b".toList, "'\"".toList, "\\ \\".toList] :=
  translateCommandline_toString _ (by simp)

end AlienConnection.Utils.Commandline
