import AlienConnection.Library.Base64

/-!
# Base64 with padding

Padding fills the last group of digits up to four characters. Two readers are in use. The
lenient one skips whatever is not in the alphabet, wants all of the padding or none, and does
not look at the bits that are left over in the last digit. The strict one skips nothing and
wants those bits to be zero, but takes less padding too.
-/

namespace AlienConnection.Library.Base64

def padding (bytes : Bytes) : Nat := (3 - bytes.length % 3) % 3

def encodePadded (bytes : Bytes) : Text :=
  encode .standard bytes ++ List.replicate (padding bytes) '='

/-- So many digits and padding characters can be the end of a text. -/
def closes (digits pad : Nat) : Bool :=
  (digits % 4, pad) ∈ [(0, 0), (2, 0), (3, 0), (2, 2), (3, 1)]

def decodeLenient (text : Text) : Option Bytes :=
  let kept := text.filter (fun char => isDigit .standard char || char == '=')
  let digits := kept.takeWhile (· != '=')
  let pad := kept.dropWhile (· != '=')
  if pad.all (· == '=') && closes digits.length pad.length then decode .standard digits else none

def decodeStrict (text : Text) : Option Bytes :=
  let digits := text.takeWhile (isDigit .standard)
  let pad := text.dropWhile (isDigit .standard)
  match decode .standard digits with
  | none => none
  | some bytes =>
      if encode .standard bytes = digits ∧ pad = List.replicate pad.length '=' ∧
        pad.length ≤ padding bytes then some bytes
      else none

/-! ## Digits and padding -/

theorem isDigit_pad : isDigit .standard '=' = false := rfl

theorem ne_pad_of_isDigit {char : Char} (digit : isDigit .standard char = true) : char ≠ '=' := by
  rintro rfl
  exact Bool.false_ne_true (isDigit_pad.symm.trans digit)

/-- Three bytes take four digits, and two or one take one more digit than bytes. -/
theorem length_encode (variant : Variant) (bytes : Bytes) :
    (encode variant bytes).length = (4 * bytes.length + 2) / 3 := by
  fun_induction encode variant bytes with
  | case1 => rfl
  | case2 first => simp
  | case3 first second => simp
  | case4 first second third rest ih =>
      simp only [List.length_cons, ih]
      omega

/-- The digits and the padding of a text that has no other characters. -/
theorem takeWhile_digits (bytes : Bytes) (count : Nat) :
    (encode .standard bytes ++ List.replicate count '=').takeWhile (isDigit .standard) =
        encode .standard bytes ∧
      (encode .standard bytes ++ List.replicate count '=').dropWhile (isDigit .standard) =
        List.replicate count '=' := by
  have digits : ∀ char ∈ encode .standard bytes, isDigit .standard char = true :=
    fun _ => isDigit_of_mem_encode
  rw [List.takeWhile_append_of_pos digits, List.dropWhile_append_of_pos digits]
  cases count with
  | zero => simp
  | succ count => simp [List.replicate_succ, isDigit_pad]

theorem takeWhile_ne_pad (bytes : Bytes) (count : Nat) :
    (encode .standard bytes ++ List.replicate count '=').takeWhile (· != '=') =
        encode .standard bytes ∧
      (encode .standard bytes ++ List.replicate count '=').dropWhile (· != '=') =
        List.replicate count '=' := by
  have digits : ∀ char ∈ encode .standard bytes, (char != '=') = true := by
    intro char member
    rw [bne_iff_ne]
    exact ne_pad_of_isDigit (isDigit_of_mem_encode member)
  rw [List.takeWhile_append_of_pos digits, List.dropWhile_append_of_pos digits]
  cases count with
  | zero => simp
  | succ count => simp [List.replicate_succ]

theorem filter_digits (bytes : Bytes) (count : Nat) :
    (encode .standard bytes ++ List.replicate count '=').filter
        (fun char => isDigit .standard char || char == '=') =
      encode .standard bytes ++ List.replicate count '=' := by
  rw [List.filter_eq_self]
  intro char member
  rw [Bool.or_eq_true]
  rcases List.mem_append.mp member with digit | pad
  · exact Or.inl (isDigit_of_mem_encode digit)
  · exact Or.inr (beq_iff_eq.mpr (List.eq_of_mem_replicate pad))

/-- What is encoded with its padding is decoded. -/
theorem decodeLenient_encodePadded (bytes : Bytes) :
    decodeLenient (encodePadded bytes) = some bytes := by
  obtain ⟨digits, pad⟩ := takeWhile_ne_pad bytes (padding bytes)
  have closed : closes (encode .standard bytes).length (padding bytes) = true := by
    rw [length_encode, padding, closes, decide_eq_true_iff]
    have cases : bytes.length % 3 = 0 ∨ bytes.length % 3 = 1 ∨ bytes.length % 3 = 2 := by omega
    rcases cases with rest | rest | rest
    · have count : (4 * bytes.length + 2) / 3 % 4 = 0 := by omega
      rw [rest, count]
      decide
    · have count : (4 * bytes.length + 2) / 3 % 4 = 2 := by omega
      rw [rest, count]
      decide
    · have count : (4 * bytes.length + 2) / 3 % 4 = 3 := by omega
      rw [rest, count]
      decide
  have padded : (List.replicate (padding bytes) '=').all (· == '=') = true := by simp
  simp only [decodeLenient, encodePadded, filter_digits, digits, pad, padded, Bool.true_and,
    List.length_replicate, closed, if_true, decode_encode]

/-- What the strict reader takes: the digits of the bytes, and padding. -/
theorem decodeStrict_eq_some_iff {text : Text} {bytes : Bytes} :
    decodeStrict text = some bytes ↔
      ∃ count ≤ padding bytes, text = encode .standard bytes ++ List.replicate count '=' := by
  constructor
  · intro decoded
    simp only [decodeStrict] at decoded
    split at decoded
    next => cases decoded
    next read _ =>
      split at decoded
      next fine =>
        cases decoded
        obtain ⟨digits, pad, few⟩ := fine
        refine ⟨_, few, ?_⟩
        rw [digits, ← pad, List.takeWhile_append_dropWhile]
      next => cases decoded
  · rintro ⟨count, few, rfl⟩
    obtain ⟨digits, pad⟩ := takeWhile_digits bytes count
    simp only [decodeStrict, digits, pad, decode_encode, List.length_replicate]
    exact if_pos ⟨trivial, trivial, few⟩

/-! ## Bits that are left over -/

def overhang (count : Nat) : Nat :=
  match count % 4 with
  | 2 => 16
  | 3 => 4
  | _ => 1

def spare (variant : Variant) (digits : Text) : Nat :=
  (digits.getLast?.bind (value variant)).getD 0 % overhang digits.length

theorem spare_group (variant : Variant) (first second third fourth : Char) (rest : Text) :
    spare variant (first :: second :: third :: fourth :: rest) = spare variant rest := by
  have count : overhang (rest.length + 4) = overhang rest.length := by
    rw [overhang, Nat.add_mod_right, overhang]
  cases rest with
  | nil => simp [spare, overhang, Nat.mod_one]
  | cons char rest =>
      simp only [spare, List.getLast?_cons_cons]
      exact congrArg (_ % ·) count

/-- Only digits without spare bits are written again. -/
theorem encode_eq_iff_spare {variant : Variant} {digits : Text} {bytes : Bytes}
    (decoded : decode variant digits = some bytes) :
    encode variant bytes = digits ↔ spare variant digits = 0 := by
  fun_induction decode variant digits generalizing bytes with
  | case1 =>
      cases decoded
      exact ⟨fun _ => rfl, fun _ => rfl⟩
  | case2 => cases decoded
  | case3 first second =>
      simp only [Option.bind_eq_bind, Option.bind_eq_some_iff] at decoded
      obtain ⟨x, readFirst, y, readSecond, same⟩ := decoded
      cases same
      obtain ⟨rfl, small⟩ := digit_value readFirst
      obtain ⟨rfl, smallSecond⟩ := digit_value readSecond
      have bits : spare variant [digit variant x, digit variant y] = y % 16 := by
        simp [spare, overhang, readSecond]
      rw [encode, toNat_byte (by omega), bits, List.cons_eq_cons, List.cons_eq_cons,
        digit_inj (by omega) small, digit_inj (by omega) smallSecond]
      simp only [and_true]
      omega
  | case4 first second third =>
      simp only [Option.bind_eq_bind, Option.bind_eq_some_iff] at decoded
      obtain ⟨x, readFirst, y, readSecond, z, readThird, same⟩ := decoded
      cases same
      obtain ⟨rfl, small⟩ := digit_value readFirst
      obtain ⟨rfl, smallSecond⟩ := digit_value readSecond
      obtain ⟨rfl, smallThird⟩ := digit_value readThird
      have bits : spare variant [digit variant x, digit variant y, digit variant z] = z % 4 := by
        simp [spare, overhang, readThird]
      rw [encode, toNat_byte (by omega), toNat_byte (by omega), bits, List.cons_eq_cons,
        List.cons_eq_cons, List.cons_eq_cons, digit_inj (by omega) small,
        digit_inj (by omega) smallSecond, digit_inj (by omega) smallThird]
      simp only [and_true]
      omega
  | case5 first second third fourth rest ih =>
      simp only [Option.bind_eq_bind, Option.bind_eq_some_iff] at decoded
      obtain ⟨x, readFirst, y, readSecond, z, readThird, w, readFourth, later, decoded, same⟩ :=
        decoded
      cases same
      obtain ⟨rfl, small⟩ := digit_value readFirst
      obtain ⟨rfl, smallSecond⟩ := digit_value readSecond
      obtain ⟨rfl, smallThird⟩ := digit_value readThird
      obtain ⟨rfl, smallFourth⟩ := digit_value readFourth
      rw [spare_group, ← ih decoded, encode, toNat_byte (by omega), toNat_byte (by omega),
        toNat_byte (by omega), List.cons_eq_cons, List.cons_eq_cons, List.cons_eq_cons,
        List.cons_eq_cons, digit_inj (by omega) small, digit_inj (by omega) smallSecond,
        digit_inj (by omega) smallThird, digit_inj (by omega) smallFourth]
      constructor
      · rintro ⟨_, _, _, _, same⟩
        exact same
      · intro same
        exact ⟨by omega, by omega, by omega, by omega, same⟩

/-! ## The two readers -/

def digits (text : Text) : Text := text.filter (isDigit .standard)

/-- What the lenient reader takes: among the characters that it does not skip, digits and then
padding. -/
theorem decodeLenient_eq_some {text : Text} {bytes : Bytes}
    (decoded : decodeLenient text = some bytes) :
    ∃ count, text.filter (fun char => isDigit .standard char || char == '=') =
        digits text ++ List.replicate count '=' ∧
      closes (digits text).length count = true ∧
      decode .standard (digits text) = some bytes := by
  simp only [decodeLenient] at decoded
  generalize same : text.filter (fun char => isDigit .standard char || char == '=') = kept
    at decoded
  split at decoded
  next fine =>
    rw [Bool.and_eq_true, List.all_eq_true] at fine
    have pad : kept.dropWhile (· != '=') =
        List.replicate (kept.dropWhile (· != '=')).length '=' := by
      refine List.eq_replicate_iff.mpr ⟨rfl, fun char member => ?_⟩
      exact beq_iff_eq.mp (fine.1 char member)
    have whole : digits text = kept.takeWhile (· != '=') := by
      have front : (kept.takeWhile (· != '=')).filter (isDigit .standard) =
          kept.takeWhile (· != '=') := by
        refine List.filter_eq_self.mpr fun char member => ?_
        have listed : char ∈ text.filter (fun char => isDigit .standard char || char == '=') :=
          same ▸ (List.takeWhile_sublist _).mem member
        have other := List.mem_takeWhile_imp member
        have either := (List.mem_filter.mp listed).2
        simp only [bne_iff_ne, ne_eq] at other
        simpa [other] using either
      have back : (kept.dropWhile (· != '=')).filter (isDigit .standard) = [] := by
        rw [pad]
        simp [isDigit_pad]
      calc digits text = kept.filter (isDigit .standard) := by
            rw [← same, List.filter_filter, digits]
            refine List.filter_congr fun char _ => ?_
            cases isDigit .standard char <;> simp
        _ = kept.takeWhile (· != '=') := by
            conv_lhs => rw [← @List.takeWhile_append_dropWhile _ (· != '=') kept]
            rw [List.filter_append, front, back, List.append_nil]
    refine ⟨(kept.dropWhile (· != '=')).length, ?_, whole ▸ fine.2, whole ▸ decoded⟩
    rw [whole, ← pad, List.takeWhile_append_dropWhile]
  next => cases decoded

/-- Nothing is skipped, and no bits are left over. -/
structure Plain (text : Text) : Prop where
  alphabet : ∀ char ∈ text, isDigit .standard char = true ∨ char = '='
  exhausted : spare .standard (digits text) = 0

theorem digits_encode (bytes : Bytes) (count : Nat) :
    digits (encode .standard bytes ++ List.replicate count '=') = encode .standard bytes := by
  have front : (encode .standard bytes).filter (isDigit .standard) = encode .standard bytes :=
    List.filter_eq_self.mpr fun _ => isDigit_of_mem_encode
  rw [digits, List.filter_append, front]
  simp [isDigit_pad]

theorem plain_of_decodeStrict {text : Text} {bytes : Bytes}
    (decoded : decodeStrict text = some bytes) : Plain text := by
  obtain ⟨count, _, rfl⟩ := decodeStrict_eq_some_iff.mp decoded
  refine ⟨fun char member => ?_, ?_⟩
  · rcases List.mem_append.mp member with digit | pad
    · exact Or.inl (isDigit_of_mem_encode digit)
    · exact Or.inr (List.eq_of_mem_replicate pad)
  · rw [digits_encode]
    exact (encode_eq_iff_spare (decode_encode _ bytes)).mp rfl

/-- Of the texts that the lenient reader takes, the strict one takes the plain ones, and reads
the same bytes. -/
theorem decodeStrict_iff_plain {text : Text} {bytes : Bytes}
    (decoded : decodeLenient text = some bytes) (read : Bytes) :
    decodeStrict text = some read ↔ read = bytes ∧ Plain text := by
  obtain ⟨count, kept, closed, whole⟩ := decodeLenient_eq_some decoded
  constructor
  · intro strict
    refine ⟨?_, plain_of_decodeStrict strict⟩
    obtain ⟨_, _, rfl⟩ := decodeStrict_eq_some_iff.mp strict
    rw [digits_encode, decode_encode] at whole
    exact Option.some.inj whole
  · rintro ⟨rfl, plain⟩
    have skipped : text.filter (fun char => isDigit .standard char || char == '=') = text := by
      refine List.filter_eq_self.mpr fun char member => ?_
      simpa using plain.alphabet char member
    have again := (encode_eq_iff_spare whole).mpr plain.exhausted
    refine decodeStrict_eq_some_iff.mpr ⟨count, ?_, ?_⟩
    · have size := length_of_decode whole
      simp only [closes, decide_eq_true_iff, List.mem_cons, Prod.mk.injEq, List.not_mem_nil,
        or_false] at closed
      rw [padding, size]
      omega
    · rw [again, ← kept, skipped]

end AlienConnection.Library.Base64
