import AlienConnection.Library.Bytes
import Mathlib.Data.Finset.Max

/-!
# Key-value pairs

The rows in which preferences are stored: a type and the bytes of a value. A set of
strings is written as one record for each string, the length in front of the bytes.
The length counts UTF-16 code units, but the reader takes as many bytes; so the sets
that can be read back are those of ASCII strings.
-/

namespace AlienConnection.Database

open Library

structure KeyValuePair where
  key : String := ""
  valueType : Nat := 0
  value : Bytes := []

namespace KeyValuePair

def typeBoolean : Nat := 1
def typeFloat : Nat := 2
def typeInt : Nat := 3
def typeLong : Nat := 4
def typeString : Nat := 5
def typeStringSet : Nat := 6

inductive ReadError where
  | bufferUnderflow
  | negativeArraySize
  deriving DecidableEq

/-! ## Buffers -/

def take (count : Nat) (buffer : Bytes) : Except ReadError (Bytes × Bytes) :=
  if count ≤ buffer.length then .ok (buffer.take count, buffer.drop count)
  else .error .bufferUnderflow

def number (width : Nat) (buffer : Bytes) : Except ReadError (BitVec (8 * width) × Bytes) :=
  (take width buffer).map (fun cut => (BitVec.ofNat _ (Bytes.ofBigEndian cut.1), cut.2))

theorem number_bigEndian {width value : Nat} (small : value < 256 ^ width) (rest : Bytes) :
    number width (Bytes.bigEndian width value ++ rest) = .ok (BitVec.ofNat _ value, rest) := by
  have enough : width ≤ (Bytes.bigEndian width value ++ rest).length := by simp
  rw [number, take, if_pos enough, Except.map, List.take_left' (by simp),
    List.drop_left' (by simp), Bytes.ofBigEndian_bigEndian small]

/-! ## Writing -/

variable (pair : KeyValuePair)

def putBoolean (value : Bool) : KeyValuePair :=
  { pair with valueType := typeBoolean, value := [if value then 1 else 0] }

def putFloat (value : BitVec 32) : KeyValuePair :=
  { pair with valueType := typeFloat, value := Bytes.bigEndian 4 value.toNat }

def putInt (value : BitVec 32) : KeyValuePair :=
  { pair with valueType := typeInt, value := Bytes.bigEndian 4 value.toNat }

def putLong (value : BitVec 64) : KeyValuePair :=
  { pair with valueType := typeLong, value := Bytes.bigEndian 8 value.toNat }

def putString (value : JavaString) : KeyValuePair :=
  { pair with valueType := typeString, value := Text.utf8 value.text }

/-- What is written for one string: `length`, and `toByteArray`. -/
def record (string : JavaString) : Bytes :=
  Bytes.bigEndian 4 (Text.utf16 string.text).length ++ Text.utf8 string.text

/-- The set is given in the order in which it is iterated. -/
def putStringSet (value : List JavaString) : KeyValuePair :=
  { pair with valueType := typeStringSet, value := value.flatMap record }

/-! ## Reading -/

/-- Bytes that are no text in UTF-8 are decoded with replacements. -/
abbrev Malformed := Bytes → JavaString

def decode (malformed : Malformed) (bytes : Bytes) : JavaString :=
  match Text.ofUtf8 bytes with
  | none => malformed bytes
  | some text =>
      if bounded : (Text.utf16 text).length < 2 ^ 31 then ⟨text, bounded⟩ else malformed bytes

def boolean : Except ReadError (Option Bool) :=
  if pair.valueType = typeBoolean then
    (take 1 pair.value).map (fun cut => some (cut.1 != [0]))
  else .ok none

def float : Except ReadError (Option (BitVec 32)) :=
  if pair.valueType = typeFloat then (number 4 pair.value).map (fun cut => some cut.1)
  else .ok none

def int : Except ReadError (Option (BitVec 32)) :=
  if pair.valueType = typeInt then (number 4 pair.value).map (fun cut => some cut.1)
  else .ok none

def long : Except ReadError (Option (BitVec 64)) :=
  if pair.valueType = typeInt then
    (number 4 pair.value).map (fun cut => some (cut.1.signExtend 64))
  else if pair.valueType = typeLong then (number 8 pair.value).map (fun cut => some cut.1)
  else .ok none

def string (malformed : Malformed) : Option JavaString :=
  if pair.valueType = typeString then some (decode malformed pair.value) else none

theorem boolean_putBoolean (value : Bool) : (pair.putBoolean value).boolean = .ok (some value) := by
  cases value <;> rfl

theorem long_putLong (value : BitVec 64) : (pair.putLong value).long = .ok (some value) := by
  have small : value.toNat < 256 ^ 8 := value.isLt
  have read := number_bigEndian small []
  have other : ¬ (pair.putLong value).valueType = typeInt := by
    change ¬ typeLong = typeInt
    decide
  have own : (pair.putLong value).valueType = typeLong := rfl
  rw [List.append_nil] at read
  rw [long, if_neg other, if_pos own]
  change (number 8 (Bytes.bigEndian 8 value.toNat)).map (fun cut => some cut.1) = _
  rw [read]
  change Except.ok (some (BitVec.ofNat 64 value.toNat)) = _
  rw [BitVec.ofNat_toNat, BitVec.setWidth_eq]

theorem long_putInt (value : BitVec 32) :
    (pair.putInt value).long = .ok (some (value.signExtend 64)) := by
  have small : value.toNat < 256 ^ 4 := value.isLt
  have read := number_bigEndian small []
  have own : (pair.putInt value).valueType = typeInt := rfl
  rw [List.append_nil] at read
  rw [long, if_pos own]
  change (number 4 (Bytes.bigEndian 4 value.toNat)).map
    (fun cut => some (cut.1.signExtend 64)) = _
  rw [read]
  change Except.ok (some ((BitVec.ofNat 32 value.toNat).signExtend 64)) = _
  rw [BitVec.ofNat_toNat, BitVec.setWidth_eq]

/-- The body of the loop of `stringSet`: the bytes of a string, and what remains. -/
def readRecord (buffer : Bytes) : Except ReadError (Bytes × Bytes) :=
  match number 4 buffer with
  | .error error => .error error
  | .ok (size, rest) =>
      if size.toInt < 0 then .error .negativeArraySize else take size.toNat rest

theorem length_take_le {count : Nat} {buffer taken rest : Bytes}
    (cut : take count buffer = .ok (taken, rest)) : rest.length + count = buffer.length := by
  unfold take at cut
  split at cut
  next enough =>
    cases cut
    rw [List.length_drop]
    omega
  next => cases cut

theorem length_number {width : Nat} {buffer rest : Bytes} {value : BitVec (8 * width)}
    (cut : number width buffer = .ok (value, rest)) : rest.length + width = buffer.length := by
  unfold number at cut
  cases taken : take width buffer with
  | error error =>
      rw [taken] at cut
      cases cut
  | ok parts =>
      rw [taken] at cut
      cases cut
      exact length_take_le taken

/-- The loop ends, since every record takes the bytes of its length. -/
theorem length_readRecord_lt {buffer chArr rest : Bytes}
    (cut : readRecord buffer = .ok (chArr, rest)) : rest.length < buffer.length := by
  unfold readRecord at cut
  cases sized : number 4 buffer with
  | error error =>
      rw [sized] at cut
      cases cut
  | ok parts =>
      have four := length_number sized
      simp only [sized] at cut
      split at cut
      next => cases cut
      next =>
        have taken := length_take_le cut
        omega

def readStrings (malformed : Malformed) (buffer : Bytes) (result : Finset JavaString) :
    Except ReadError (Finset JavaString) :=
  if buffer = [] then .ok result
  else
    match _ : readRecord buffer with
    | .error error => .error error
    | .ok (chArr, rest) => readStrings malformed rest (insert (decode malformed chArr) result)
termination_by buffer.length
decreasing_by
  apply length_readRecord_lt
  assumption

def stringSet (malformed : Malformed) : Except ReadError (Option (Finset JavaString)) :=
  if pair.valueType = typeStringSet then (readStrings malformed pair.value ∅).map some
  else .ok none

def Readable (malformed : Malformed) : Prop :=
  (∃ value, pair.boolean = .ok value) ∧ (∃ value, pair.float = .ok value) ∧
    (∃ value, pair.int = .ok value) ∧ (∃ value, pair.long = .ok value) ∧
    ∃ value, pair.stringSet malformed = .ok value

/-! ## Records -/

variable {malformed : Malformed}

theorem decode_utf8 (string : JavaString) :
    decode malformed (Text.utf8 string.text) = string := by
  rw [decode, Text.ofUtf8_utf8]
  exact dif_pos string.bounded

theorem string_putString (value : JavaString) :
    (pair.putString value).string malformed = some value := by
  have own : (pair.putString value).valueType = typeString := rfl
  rw [string, if_pos own]
  exact congrArg some (decode_utf8 value)

theorem readStrings_nil (result : Finset JavaString) :
    readStrings malformed [] result = .ok result := by
  rw [readStrings, if_pos rfl]

theorem readStrings_ok {buffer chArr rest : Bytes} (cut : readRecord buffer = .ok (chArr, rest))
    (result : Finset JavaString) :
    readStrings malformed buffer result =
      readStrings malformed rest (insert (decode malformed chArr) result) := by
  have nonempty : buffer ≠ [] := by
    rintro rfl
    exact Nat.not_lt_zero _ (length_readRecord_lt cut)
  rw [readStrings, if_neg nonempty]
  split
  next error failed =>
    rw [cut] at failed
    cases failed
  next first more same =>
    rw [cut] at same
    cases same
    rfl

theorem readStrings_error {buffer : Bytes} {error : ReadError} (nonempty : buffer ≠ [])
    (failed : readRecord buffer = .error error) (result : Finset JavaString) :
    readStrings malformed buffer result = .error error := by
  rw [readStrings, if_neg nonempty]
  split
  next other same =>
    rw [failed] at same
    cases same
    rfl
  next first more cut =>
    rw [failed] at cut
    cases cut

/-- Strings that were read stay in the result. -/
theorem subset_of_readStrings {buffer : Bytes} {result final : Finset JavaString}
    (read : readStrings malformed buffer result = .ok final) : result ⊆ final := by
  induction buffer, result using readStrings.induct malformed with
  | case1 result =>
      rw [readStrings_nil] at read
      cases read
      exact Finset.Subset.refl _
  | case2 buffer result nonempty error failed =>
      rw [readStrings_error nonempty failed] at read
      cases read
  | case3 buffer result nonempty chArr rest cut ih =>
      rw [readStrings_ok cut] at read
      exact (Finset.subset_insert _ _).trans (ih read)

/-- A record is read as as many bytes as its string has code units. -/
theorem readRecord_record (string : JavaString) (rest : Bytes) :
    readRecord (record string ++ rest) =
      .ok ((Text.utf8 string.text).take (Text.utf16 string.text).length,
        (Text.utf8 string.text).drop (Text.utf16 string.text).length ++ rest) := by
  have bounded := string.bounded
  have shorter := Text.length_utf16_le string.text
  rw [record, List.append_assoc]
  generalize (Text.utf16 string.text).length = length at bounded shorter ⊢
  have small : length < 256 ^ 4 := by omega
  have size : (BitVec.ofNat (8 * 4) length).toNat = length := by
    rw [BitVec.toNat_ofNat]
    omega
  have positive : ¬ (BitVec.ofNat (8 * 4) length).toInt < 0 := by
    rw [BitVec.toInt_eq_toNat_cond, size]
    split <;> omega
  have enough : length ≤ (Text.utf8 string.text ++ rest).length := by
    rw [List.length_append]
    omega
  rw [readRecord, number_bigEndian small]
  simp only [if_neg positive, size]
  rw [take, if_pos enough, List.take_append_of_le_length shorter,
    List.drop_append_of_le_length shorter]

/-- A length that starts with a byte of at least 128 is negative or incomplete. -/
theorem readRecord_high {byte : UInt8} (high : 128 ≤ byte.toNat) (rest : Bytes) :
    ∃ error, readRecord (byte :: rest) = .error error := by
  unfold readRecord number take
  split
  next error _ => exact ⟨error, rfl⟩
  next size more cut =>
    split at cut
    next enough =>
      cases cut
      have length : (rest.take 3).length = 3 := by
        rw [List.length_take]
        simp only [List.length_cons] at enough
        omega
      have low := Bytes.le_ofBigEndian byte (rest.take 3)
      have small := Bytes.ofBigEndian_lt (byte :: rest.take 3)
      rw [length] at low
      rw [List.length_cons, length] at small
      refine ⟨.negativeArraySize, if_pos ?_⟩
      rw [List.take_succ_cons, BitVec.toInt_eq_toNat_cond, BitVec.toNat_ofNat]
      dsimp only
      split <;> omega
    next => cases cut

/-! ## Sets -/

def Iterates (order : List JavaString) (set : Finset JavaString) : Prop :=
  order.Nodup ∧ order.toFinset = set

def Ascii (string : JavaString) : Prop := Text.isAscii string.text = true

instance : DecidablePred Ascii := fun string =>
  inferInstanceAs (Decidable (Text.isAscii string.text = true))

theorem readStrings_ascii {strings : List JavaString} (ascii : ∀ string ∈ strings, Ascii string)
    (rest : Bytes) (result : Finset JavaString) :
    readStrings malformed (strings.flatMap record ++ rest) result =
      readStrings malformed rest (result ∪ strings.toFinset) := by
  induction strings generalizing result with
  | nil => simp
  | cons string strings ih =>
      have here : (Text.utf16 string.text).length = (Text.utf8 string.text).length :=
        (Text.length_utf16_eq_iff _).mpr (ascii string List.mem_cons_self)
      have cut := readRecord_record string (strings.flatMap record ++ rest)
      rw [here, List.take_length, List.drop_length, List.nil_append] at cut
      rw [List.flatMap_cons, List.append_assoc, readStrings_ok cut, decode_utf8,
        ih (fun other member => ascii other (List.mem_cons_of_mem _ member)), List.toFinset_cons,
        Finset.insert_union, Finset.union_insert]

/-- A string that is not ASCII is cut: reading fails, or gives a shorter string that is
not ASCII either. -/
theorem readStrings_cut {string : JavaString} (notAscii : ¬ Ascii string) {rest : Bytes}
    {result final : Finset JavaString}
    (read : readStrings malformed (record string ++ rest) result = .ok final) :
    ∃ shorter ∈ final, ¬ Ascii shorter ∧
      (Text.utf8 shorter.text).length < (Text.utf8 string.text).length := by
  have fewer : (Text.utf16 string.text).length < (Text.utf8 string.text).length :=
    lt_of_le_of_ne (Text.length_utf16_le _) (fun same => notAscii
      ((Text.length_utf16_eq_iff _).mp same))
  rw [readStrings_ok (readRecord_record string rest)] at read
  rcases Text.utf8_cut fewer with ⟨first, last, whole, length⟩ | ⟨byte, more, dropped, high⟩
  · have start : (Text.utf16 first).length ≤ (Text.utf16 string.text).length := by
      rw [whole, Text.utf16, Text.utf16, List.flatMap_append, List.length_append]
      exact Nat.le_add_right _ _
    have taken : (Text.utf8 string.text).take (Text.utf16 string.text).length =
        Text.utf8 first := by
      rw [whole, Text.utf8_append, ← whole, ← length, List.take_left]
    let shorter : JavaString := ⟨first, lt_of_le_of_lt start string.bounded⟩
    refine ⟨shorter, ?_, ?_, ?_⟩
    · apply subset_of_readStrings read
      rw [taken]
      exact (decode_utf8 shorter).symm ▸ Finset.mem_insert_self _ _
    · -- an ASCII start of as many bytes as the string has code units would be all of it
      intro ascii
      have units := (Text.length_utf16_eq_iff first).mpr ascii
      have none : Text.utf16 last = Text.utf16 [] := by
        apply List.length_eq_zero_iff.mp
        rw [whole, Text.utf16, List.flatMap_append, List.length_append] at length
        rw [Text.utf16] at units ⊢
        omega
      rw [Ascii, whole, Text.utf16_injective none, List.append_nil] at notAscii
      exact notAscii ascii
    · exact length ▸ fewer
  · rw [dropped, List.cons_append] at read
    obtain ⟨error, failed⟩ := readRecord_high high (more ++ rest)
    rw [readStrings_error (List.cons_ne_nil _ _) failed] at read
    cases read

/-- The orders in which a set can be iterated: the ASCII strings first, then a given
other string. -/
theorem exists_iterates {set : Finset JavaString} {string : JavaString} (member : string ∈ set)
    (notAscii : ¬ Ascii string) :
    ∃ first rest, Iterates (first ++ string :: rest) set ∧ ∀ other ∈ first, Ascii other := by
  refine ⟨(set.filter Ascii).toList,
    ((set.filter (fun other => ¬ Ascii other)).erase string).toList, ⟨?_, ?_⟩, ?_⟩
  · refine List.nodup_append.mpr ⟨Finset.nodup_toList _, List.nodup_cons.mpr
      ⟨by simp, Finset.nodup_toList _⟩, ?_⟩
    intro ascii first other later same
    rw [Finset.mem_toList, Finset.mem_filter] at first
    rw [List.mem_cons, Finset.mem_toList, Finset.mem_erase, Finset.mem_filter] at later
    rw [← same] at later
    rcases later with here | ⟨_, _, not⟩
    · exact notAscii (here ▸ first.2)
    · exact not first.2
  · ext other
    simp only [List.mem_toFinset, List.mem_append, List.mem_cons, Finset.mem_toList,
      Finset.mem_erase, Finset.mem_filter]
    constructor
    · rintro (⟨inSet, _⟩ | rfl | ⟨_, inSet, _⟩)
      · exact inSet
      · exact member
      · exact inSet
    · intro inSet
      by_cases ascii : Ascii other
      · exact Or.inl ⟨inSet, ascii⟩
      · by_cases same : other = string
        · exact Or.inr (Or.inl same)
        · exact Or.inr (Or.inr ⟨same, inSet, ascii⟩)
  · intro other first
    rw [Finset.mem_toList, Finset.mem_filter] at first
    exact first.2

theorem stringSet_putStringSet (order : List JavaString) :
    (pair.putStringSet order).stringSet malformed =
      (readStrings malformed (order.flatMap record) ∅).map some := rfl

def ReadsBack (malformed : Malformed) (order : List JavaString) (set : Finset JavaString) : Prop :=
  (pair.putStringSet order).stringSet malformed = .ok (some set) ∧
    (pair.putStringSet order).Readable malformed

theorem readsBack_iff {order : List JavaString} {set : Finset JavaString} :
    ReadsBack pair malformed order set ↔
      readStrings malformed (order.flatMap record) ∅ = .ok set := by
  constructor
  · rintro ⟨read, _⟩
    rw [stringSet_putStringSet] at read
    cases final : readStrings malformed (order.flatMap record) ∅ with
    | error error =>
        rw [final] at read
        cases read
    | ok result =>
        rw [final] at read
        cases read
        rfl
  · intro read
    have back : (pair.putStringSet order).stringSet malformed = .ok (some set) := by
      rw [stringSet_putStringSet, read]
      rfl
    exact ⟨back, ⟨_, rfl⟩, ⟨_, rfl⟩, ⟨_, rfl⟩, ⟨_, rfl⟩, ⟨_, back⟩⟩

/-- A set is read back, in whatever order it is iterated, exactly if all its strings are
ASCII. -/
theorem readsBack_iff_ascii (malformed : Malformed) (set : Finset JavaString) :
    (∀ order, Iterates order set → ReadsBack pair malformed order set) ↔
      ∀ string ∈ set, Ascii string := by
  constructor
  · intro all
    by_contra some
    have others : (set.filter (fun string => ¬ Ascii string)).Nonempty := by
      rw [Finset.filter_nonempty_iff]
      simpa using some
    -- a string that is not ASCII and has the fewest bytes
    obtain ⟨string, selected, least⟩ := Finset.exists_min_image _
      (fun string : JavaString => (Text.utf8 string.text).length) others
    obtain ⟨member, notAscii⟩ := Finset.mem_filter.mp selected
    obtain ⟨first, rest, iterates, ascii⟩ := exists_iterates member notAscii
    have read := (readsBack_iff pair).mp (all _ iterates)
    rw [List.flatMap_append, readStrings_ascii ascii, List.flatMap_cons] at read
    obtain ⟨shorter, shorterMember, shorterNotAscii, fewer⟩ := readStrings_cut notAscii read
    have atLeast := least shorter (Finset.mem_filter.mpr ⟨shorterMember, shorterNotAscii⟩)
    exact absurd fewer (Nat.not_lt.mpr atLeast)
  · rintro ascii order ⟨_, rfl⟩
    have each : ∀ string ∈ order, Ascii string := fun string member =>
      ascii string (List.mem_toFinset.mpr member)
    rw [readsBack_iff, ← List.append_nil (order.flatMap record), readStrings_ascii each,
      readStrings_nil, Finset.empty_union]

/-- The letter é takes one code unit and two bytes: behind the first of them no length
follows. -/
theorem not_readsBack_accent :
    let accent : JavaString := ⟨['é'], by decide⟩
    let replacement : Malformed := fun _ => ⟨['\uFFFD'], by decide⟩
    Iterates [accent] {accent} ∧
      (({} : KeyValuePair).putStringSet [accent]).stringSet replacement =
        .error .bufferUnderflow := by
  intro accent replacement
  have cut := readRecord_record accent []
  have incomplete : readRecord ((Text.utf8 accent.text).drop (Text.utf16 accent.text).length ++ []) =
      .error .bufferUnderflow := rfl
  refine ⟨⟨List.nodup_singleton accent, rfl⟩, ?_⟩
  rw [stringSet_putStringSet, List.flatMap_singleton, ← List.append_nil (record accent),
    readStrings_ok cut, readStrings_error (by decide) incomplete]
  rfl

end KeyValuePair

end AlienConnection.Database
