import AlienConnection.Plugin.PluginOptions

/-!
# Writing and reading options

The reader works on tokens, but what it does depends on single characters only: a
backslash takes the next character as it is, whatever token that one starts. Read
character by character, the escaped text of a name is the name, and the written
options are the entries in the order in which the map was walked.
-/

namespace AlienConnection.Plugin.PluginOptions

open Library

/-! ## Reading characters -/

def Reader.append (text : List Char) (reader : Reader) : Reader :=
  { reader with current := reader.current ++ text }

@[simp]
theorem append_append (first second : List Char) (reader : Reader) :
    (reader.append first).append second = reader.append (first ++ second) := by
  simp [Reader.append]

def Reader.equality (reader : Reader) : Reader :=
  match reader.key with
  | none => { reader with key := some (String.ofList reader.current), current := [] }
  | some _ => reader.append ['=']

def Reader.plain (reader : Reader) (char : Char) : Reader :=
  if char = '=' then reader.equality
  else if char = ';' then reader.endOption
  else reader.append [char]

def readChars : List Char → Reader → Reader
  | [], reader => reader
  | first :: rest, reader =>
      match rest with
      | [] => reader.plain first
      | second :: behind =>
          if first = '\\' then readChars behind (reader.append [second])
          else readChars (second :: behind) (reader.plain first)

theorem tokenize_delimiter {char : Char} (delimiter : isDelimiter char = true)
    (rest : List Char) : tokenize (char :: rest) = [char] :: tokenize rest := by
  rw [tokenize]
  cases tokenize rest with
  | nil => rfl
  | cons token tokens => simp [delimiter]

/-- A token that is no delimiter is appended. -/
theorem readTokens_run {token : List Char}
    (apart : ∀ char, isDelimiter char = true → token ≠ [char])
    (tokens : List (List Char)) (reader : Reader) :
    readTokens (token :: tokens) reader = readTokens tokens (reader.append token) := by
  have slash := apart '\\' rfl
  have equality := apart '=' rfl
  have semicolon := apart ';' rfl
  rw [readTokens.eq_def]
  split <;> simp_all [Reader.append]

/-- Reading from a character that is no delimiter on: it is appended. -/
theorem readTokens_text {char : Char} (text : isDelimiter char = false) (rest : List Char) :
    ∃ more tokens, tokenize (char :: rest) = (char :: more) :: tokens ∧
      ∀ reader : Reader, readTokens tokens (reader.append more) =
        readTokens (tokenize rest) reader := by
  rw [tokenize]
  cases tokenize rest with
  | nil => exact ⟨[], [], rfl, fun reader => by simp [Reader.append]⟩
  | cons token tokens =>
      cases found : token.any isDelimiter with
      | true => exact ⟨[], token :: tokens, by simp [found], fun reader => by simp [Reader.append]⟩
      | false =>
          have apart : ∀ char, isDelimiter char = true → token ≠ [char] := by
            intro char delimiter same
            simp [same, delimiter] at found
          exact ⟨token, tokens, by simp [text, found], fun reader =>
            (readTokens_run apart tokens reader).symm⟩

theorem readTokens_cons_text {char : Char} (text : isDelimiter char = false) (rest : List Char)
    (reader : Reader) :
    readTokens (tokenize (char :: rest)) reader =
      readTokens (tokenize rest) (reader.append [char]) := by
  obtain ⟨more, tokens, cut, same⟩ := readTokens_text text rest
  have apart : ∀ other, isDelimiter other = true → char :: more ≠ [other] := by
    intro other delimiter equal
    rw [← (List.cons.inj equal).1, text] at delimiter
    cases delimiter
  rw [cut, readTokens_run apart, ← same, append_append, List.singleton_append]

/-- Behind a backslash every character is appended. -/
theorem readTokens_escaped (char : Char) (rest : List Char) (reader : Reader) :
    readTokens (tokenize ('\\' :: char :: rest)) reader =
      readTokens (tokenize rest) (reader.append [char]) := by
  have step : ∀ next tokens, readTokens (['\\'] :: next :: tokens) reader =
      readTokens tokens (reader.append next) := fun _ _ => rfl
  rw [tokenize_delimiter rfl]
  cases delimiter : isDelimiter char with
  | true => rw [tokenize_delimiter delimiter, step]
  | false =>
      obtain ⟨more, tokens, cut, same⟩ := readTokens_text delimiter rest
      rw [cut, step, ← same, append_append, List.singleton_append]

theorem readTokens_plain {char : Char} (notSlash : char ≠ '\\') (rest : List Char)
    (reader : Reader) :
    readTokens (tokenize (char :: rest)) reader =
      readTokens (tokenize rest) (reader.plain char) := by
  unfold Reader.plain
  split
  next equality =>
    rw [equality, tokenize_delimiter rfl]
    obtain ⟨options, current, key, parseId⟩ := reader
    cases key with
    | none => rfl
    | some key => rfl
  next notEquality =>
    split
    next semicolon =>
      rw [semicolon, tokenize_delimiter rfl]
      rfl
    next notSemicolon =>
      refine readTokens_cons_text ?_ rest reader
      simp [isDelimiter, notSlash, notEquality, notSemicolon]

/-- The tokens do not matter. -/
theorem readTokens_tokenize (chars : List Char) (reader : Reader) :
    readTokens (tokenize chars) reader = readChars chars reader := by
  induction chars, reader using readChars.induct with
  | case1 reader => rfl
  | case2 first reader =>
      rw [readChars]
      by_cases slash : first = '\\'
      · rw [slash]
        rfl
      · exact readTokens_plain slash [] reader
  | case3 reader second behind ih =>
      rw [readTokens_escaped, ih, readChars, if_pos rfl]
  | case4 first reader second behind notSlash ih =>
      rw [readTokens_plain notSlash, ih, readChars, if_neg notSlash]

theorem readChars_plain {char : Char} (notSlash : char ≠ '\\') (rest : List Char)
    (reader : Reader) : readChars (char :: rest) reader = readChars rest (reader.plain char) := by
  cases rest with
  | nil => rfl
  | cons second behind => rw [readChars, if_neg notSlash]

theorem readChars_escaped (char : Char) (rest : List Char) (reader : Reader) :
    readChars ('\\' :: char :: rest) reader = readChars rest (reader.append [char]) := by
  rw [readChars, if_pos rfl]

theorem readChars_char (char : Char) (tail : List Char) (reader : Reader) :
    readChars ((if isDelimiter char then ['\\', char] else [char]) ++ tail) reader =
      readChars tail (reader.append [char]) := by
  split
  · exact readChars_escaped char tail reader
  next text =>
    simp only [isDelimiter, Bool.or_eq_true, beq_iff_eq, not_or] at text
    obtain ⟨⟨notSlash, notEquality⟩, notSemicolon⟩ := text
    rw [List.singleton_append, readChars_plain notSlash, Reader.plain, if_neg notEquality,
      if_neg notSemicolon]

/-- The escaped text of a name is the name. -/
theorem readChars_append (text : String) (tail : List Char) (reader : Reader) :
    readChars (append text ++ tail) reader = readChars tail (reader.append text.toList) := by
  rw [append]
  induction text.toList generalizing reader with
  | nil => simp [Reader.append]
  | cons char rest ih =>
      rw [List.flatMap_cons, List.append_assoc, readChars_char, ih, append_append,
        List.singleton_append]

/-! ## Entries -/

def field (entry : String × Option String) : List Char :=
  append entry.1 ++
    match entry.2 with
    | none => []
    | some text => '=' :: append text

def Reader.fresh (options : PluginOptions) : Reader :=
  { options := options, current := [], key := none, parseId := false }

theorem readChars_field {entry : String × Option String} (entered : entry ≠ ("", none))
    (options : PluginOptions) (tail : List Char) :
    readChars (field entry ++ ';' :: tail) (Reader.fresh options) =
      readChars tail (Reader.fresh
        { options with entries := LinkedMap.put entry.1 entry.2 options.entries }) := by
  obtain ⟨key, value⟩ := entry
  rw [field, List.append_assoc, readChars_append]
  cases value with
  | none =>
      have nonempty : key.toList ≠ [] := by
        intro empty
        exact entered (by rw [String.toList_eq_nil_iff.mp empty])
      rw [List.nil_append, readChars_plain (by decide)]
      simp [Reader.plain, Reader.endOption, Reader.append, Reader.fresh, nonempty]
  | some text =>
      rw [List.cons_append, readChars_plain (by decide), readChars_append,
        readChars_plain (by decide)]
      simp [Reader.plain, Reader.equality, Reader.endOption, Reader.append, Reader.fresh]

theorem readChars_fields {entries : List (String × Option String)}
    (entered : ("", none) ∉ entries) (options : PluginOptions) (tail : List Char) :
    readChars (entries.flatMap (fun entry => field entry ++ [';']) ++ tail)
        (Reader.fresh options) =
      readChars tail (Reader.fresh { options with
        entries := entries.foldl (fun built entry => LinkedMap.put entry.1 entry.2 built)
          options.entries }) := by
  induction entries generalizing options with
  | nil => rfl
  | cons entry rest ih =>
      have here : entry ≠ ("", none) := by
        rintro rfl
        exact entered List.mem_cons_self
      have later : ("", none) ∉ rest := fun member => entered (List.mem_cons_of_mem _ member)
      rw [List.flatMap_cons, List.append_assoc, List.append_assoc, List.singleton_append,
        readChars_field here, ih later, List.foldl_cons]

theorem appendEntries_cons (start : List Char) (entry : String × Option String)
    (rest : List (String × Option String)) :
    appendEntries start (entry :: rest) =
      appendEntries ((if start.isEmpty then start else start ++ [';']) ++ field entry) rest := by
  obtain ⟨key, value⟩ := entry
  cases value with
  | none => simp [appendEntries, field]
  | some text => simp [appendEntries, field]

/-- Behind a text the fields follow, each after a semicolon. -/
theorem appendEntries_eq {start : List Char} (nonempty : start ≠ [])
    (entries : List (String × Option String)) :
    appendEntries start entries ++ [';'] =
      start ++ ';' :: entries.flatMap (fun entry => field entry ++ [';']) := by
  induction entries generalizing start with
  | nil => rfl
  | cons entry rest ih =>
      have separated : (if start.isEmpty = true then start else start ++ [';']) =
          start ++ [';'] := if_neg (by simpa using nonempty)
      rw [appendEntries_cons, separated, ih (by simp)]
      simp

theorem appendEntries_concat {start : List Char} (nonempty : start ≠ [])
    (entries : List (String × Option String)) (last : String × Option String) :
    appendEntries start (entries ++ [last]) = appendEntries start entries ++ ';' :: field last := by
  have ended := appendEntries_eq nonempty (entries ++ [last])
  rw [List.flatMap_append, ← List.cons_append, ← List.append_assoc,
    ← appendEntries_eq nonempty entries] at ended
  apply (List.append_left_inj [';']).mp
  rw [ended]
  simp

theorem appendEntries_ne_nil {start : List Char} (nonempty : start ≠ [])
    (entries : List (String × Option String)) : appendEntries start entries ≠ [] := by
  induction entries generalizing start with
  | nil => exact nonempty
  | cons entry rest ih =>
      rw [appendEntries_cons]
      apply ih
      apply List.append_ne_nil_of_left_ne_nil
      split
      · exact nonempty
      · simp

theorem append_ne_nil {text : String} (nonempty : text ≠ "") : append text ≠ [] := by
  intro empty
  rw [append, List.flatMap_eq_nil_iff] at empty
  apply nonempty
  rw [← String.toList_eq_nil_iff, List.eq_nil_iff_forall_not_mem]
  intro char member
  have missing := empty char member
  split at missing <;> cases missing

/-- Behind the name and the first fields the reader is ready for the next one. -/
theorem readChars_line {id : String} (named : id ≠ "") {entries : List (String × Option String)}
    (entered : ("", none) ∉ entries) (tail : List Char) :
    readChars (appendEntries (append id) entries ++ ';' :: tail) { parseId := true } =
      readChars tail (Reader.fresh
        { id := id
          entries := entries.foldl (fun built entry => LinkedMap.put entry.1 entry.2 built) [] }) := by
  -- the first semicolon ends the name
  have first : (({ parseId := true } : Reader).append id.toList).plain ';' =
      Reader.fresh { id := id } := by
    simp [Reader.plain, Reader.append, Reader.endOption, Reader.fresh, named]
  rw [← List.singleton_append, ← List.append_assoc, appendEntries_eq (append_ne_nil named),
    List.append_assoc, List.cons_append, readChars_append, readChars_plain (by decide), first,
    readChars_fields entered]

theorem field_ne_nil {entry : String × Option String} (entered : entry ≠ ("", none)) :
    field entry ≠ [] := by
  obtain ⟨key, value⟩ := entry
  cases value with
  | none =>
      have named : key ≠ "" := by
        rintro rfl
        exact entered rfl
      simpa [field] using append_ne_nil named
  | some text => simp [field]

/-- Without a text in front the first field stands without a semicolon. -/
theorem appendEntries_nil_cons {entry : String × Option String}
    (rest : List (String × Option String)) :
    appendEntries [] (entry :: rest) = appendEntries (field entry) rest :=
  appendEntries_cons [] entry rest

theorem appendEntries_nil {entries : List (String × Option String)}
    (entered : ("", none) ∉ entries) (filled : entries ≠ []) :
    appendEntries [] entries ≠ [] ∧
      appendEntries [] entries ++ [';'] =
        entries.flatMap (fun entry => field entry ++ [';']) := by
  cases entries with
  | nil => exact absurd rfl filled
  | cons entry rest =>
      have here : entry ≠ ("", none) := by
        rintro rfl
        exact entered List.mem_cons_self
      have first := field_ne_nil here
      rw [appendEntries_nil_cons]
      refine ⟨appendEntries_ne_nil first rest, ?_⟩
      rw [appendEntries_eq first]
      simp

/-! ## Control characters -/

def hasControl (text : String) : Bool := text.toList.any isISOControl

def entryHasControl (entry : String × Option String) : Bool :=
  hasControl entry.1 || entry.2.any hasControl

section

variable {marked : Char → Bool} (slash : marked '\\' = false)

include slash

theorem any_append (text : String) : (append text).any marked = text.toList.any marked := by
  rw [append]
  induction text.toList with
  | nil => rfl
  | cons char rest ih =>
      rw [List.flatMap_cons, List.any_append, ih, List.any_cons]
      split <;> simp [slash]

theorem any_field (equality : marked '=' = false) (entry : String × Option String) :
    (field entry).any marked =
      (entry.1.toList.any marked || entry.2.any (fun text => text.toList.any marked)) := by
  obtain ⟨key, value⟩ := entry
  cases value with
  | none => simp [field, any_append slash]
  | some text => simp [field, any_append slash, equality]

/-- Only the texts themselves bring characters other than delimiters. -/
theorem any_appendEntries (equality : marked '=' = false) (semicolon : marked ';' = false)
    (start : List Char) (entries : List (String × Option String)) :
    (appendEntries start entries).any marked =
      (start.any marked || entries.any (fun entry =>
        entry.1.toList.any marked || entry.2.any (fun text => text.toList.any marked))) := by
  induction entries generalizing start with
  | nil => simp [appendEntries]
  | cons entry rest ih =>
      rw [appendEntries_cons, ih, List.any_append, any_field slash equality, List.any_cons,
        Bool.or_assoc]
      split <;> simp [semicolon]

end

/-- The written options have the control characters of the options. -/
theorem any_control (start : String) (entries : List (String × Option String)) :
    (appendEntries (append start) entries).any isISOControl =
      (hasControl start || entries.any entryHasControl) := by
  rw [any_appendEntries rfl rfl rfl, any_append rfl]
  rfl

/-! ## The round trip -/

/-- `equals`: the same name and the same map. -/
def Equals (first second : PluginOptions) : Prop :=
  first.id = second.id ∧
    ∀ key, LinkedMap.get key first.entries = LinkedMap.get key second.entries

/-- What a hash map can hold: no key twice. -/
def Distinct (options : PluginOptions) : Prop := (LinkedMap.keys options.entries).Nodup

def Walks (order : HashOrder) : Prop := ∀ entries, (order entries).Perm entries

variable {order : HashOrder} {options : PluginOptions}

theorem equals_walked (walks : Walks order) (distinct : options.Distinct) :
    Equals { options with entries := order options.entries } options :=
  ⟨rfl, LinkedMap.get_perm (walks options.entries) distinct⟩

theorem entered_walked (walks : Walks order) (entered : ("", none) ∉ options.entries) :
    ("", none) ∉ order options.entries :=
  fun member => entered ((walks options.entries).mem_iff.mp member)

theorem distinct_walked (walks : Walks order) (distinct : options.Distinct) :
    (LinkedMap.keys (order options.entries)).Nodup :=
  ((walks options.entries).map Prod.fst).nodup_iff.mpr distinct

/-- The fields of a map are read as its entries. -/
theorem readChars_walked (walks : Walks order) (distinct : options.Distinct)
    (entered : ("", none) ∉ options.entries) (id : String) :
    readChars ((order options.entries).flatMap (fun entry => field entry ++ [';']))
        (Reader.fresh { id := id }) =
      Reader.fresh { id := id, entries := order options.entries } := by
  have ended := readChars_fields (entered_walked walks entered) { id := id } []
  rw [List.append_nil] at ended
  rw [ended, LinkedMap.foldl_put_nil (distinct_walked walks distinct)]
  rfl

/-- Reading text without control characters. -/
theorem read_of_clean {text : List Char} (clean : text.any isISOControl = false)
    (nonempty : text ≠ []) (parseId : Bool) :
    read (some (String.ofList text)) parseId =
      .ok (readChars (text ++ [';']) { parseId := parseId }).options := by
  simp [read, nonempty, clean, readTokens_tokenize]

theorem any_walked (walks : Walks order) :
    (order options.entries).any entryHasControl = options.entries.any entryHasControl :=
  (walks options.entries).any_eq

/-- The whole text, with the name in front. -/
theorem read_render_named (walks : Walks order) (distinct : options.Distinct)
    (named : options.id ≠ "") (clean : hasControl options.id = false)
    (entriesClean : options.entries.any entryHasControl = false)
    (entered : ("", none) ∉ options.entries) :
    read (some (options.render order false)) true =
      .ok { options with entries := order options.entries } := by
  have text : options.render order false =
      String.ofList (appendEntries (append options.id) (order options.entries)) := by
    rw [render, if_neg Bool.false_ne_true, if_neg]
    rw [String.isEmpty_iff]
    exact named
  have noControl :
      (appendEntries (append options.id) (order options.entries)).any isISOControl = false := by
    rw [any_control, any_walked walks, clean, entriesClean]
    rfl
  rw [text, read_of_clean noControl (appendEntries_ne_nil (append_ne_nil named) _),
    readChars_line named (entered_walked walks entered),
    LinkedMap.foldl_put_nil (distinct_walked walks distinct)]
  rfl

/-- The text without the name. -/
theorem read_render_trimmed (walks : Walks order) (distinct : options.Distinct)
    (entriesClean : options.entries.any entryHasControl = false)
    (entered : ("", none) ∉ options.entries) :
    withId options.id (some (options.render order true)) =
      .ok { options with entries := order options.entries } := by
  rw [withId, render, if_pos rfl]
  by_cases filled : order options.entries = []
  · simp [filled, appendEntries, read, Except.map]
  · have noControl : (appendEntries [] (order options.entries)).any isISOControl = false := by
      rw [any_appendEntries rfl rfl rfl]
      exact (any_walked walks).trans entriesClean
    obtain ⟨nonempty, ended⟩ := appendEntries_nil (entered_walked walks entered) filled
    have start : ({ parseId := false } : Reader) = Reader.fresh {} := rfl
    rw [read_of_clean noControl nonempty, ended, start,
      readChars_walked walks distinct entered ""]
    rfl

/-- Options written with their name, and written without it, are read as equal options,
in whatever order the map is walked. -/
theorem read_render (walks : Walks order) (distinct : options.Distinct)
    (named : options.id ≠ "") (clean : hasControl options.id = false)
    (entriesClean : options.entries.any entryHasControl = false)
    (entered : ("", none) ∉ options.entries) :
    (∃ copy, read (some (options.render order false)) true = .ok copy ∧ copy.Equals options) ∧
      ∃ copy, withId options.id (some (options.render order true)) = .ok copy ∧
        copy.Equals options := by
  constructor
  · exact ⟨_, read_render_named walks distinct named clean entriesClean entered,
      equals_walked walks distinct⟩
  · exact ⟨_, read_render_trimmed walks distinct entriesClean entered,
      equals_walked walks distinct⟩

/-- Special characters in the name, in keys and in values, an empty key, and both an
empty and no value, walked backwards. -/
theorem read_render_special :
    let options : PluginOptions :=
      { id := "a=;b\\", entries := [("k;=", some ""), ("", some "v\\="), ("flag", none)] }
    (∃ copy, read (some (options.render List.reverse false)) true = .ok copy ∧
        copy.Equals options) ∧
      ∃ copy, withId options.id (some (options.render List.reverse true)) = .ok copy ∧
        copy.Equals options :=
  read_render (fun entries => List.reverse_perm entries) (by unfold Distinct; decide) (by decide)
    (by decide) (by decide) (by decide)

end AlienConnection.Plugin.PluginOptions
