import AlienConnection.Library.Bytes

/-!
# Uniform resource identifiers

Percent-encoding keeps some characters and writes the UTF-8 bytes of all others in
hexadecimal. A reference is cut at its first number sign, then at its first question
mark; a query is cut at ampersands, and each parameter at its first equality sign.
-/

namespace AlienConnection.Library

namespace Percent

open Text

def hexDigit (value : Nat) : Char :=
  if value < 10 then Char.ofNat (48 + value) else Char.ofNat (55 + value)

def escape (byte : UInt8) : Text :=
  ['%', hexDigit (byte.toNat / 16), hexDigit (byte.toNat % 16)]

def encodeChar (keep : Char → Bool) (char : Char) : Text :=
  if keep char then [char] else (String.utf8EncodeChar char).flatMap escape

def encode (keep : Char → Bool) (text : Text) : Text := text.flatMap (encodeChar keep)

theorem encode_append (keep : Char → Bool) (front back : Text) :
    encode keep (front ++ back) = encode keep front ++ encode keep back :=
  List.flatMap_append

/-- Text of kept characters is left as it is. -/
theorem encode_eq_self {keep : Char → Bool} {text : Text} (kept : ∀ char ∈ text, keep char = true) :
    encode keep text = text := by
  induction text with
  | nil => rfl
  | cons char rest ih =>
      have here : encodeChar keep char = [char] := if_pos (kept char List.mem_cons_self)
      have later := ih (fun other member => kept other (List.mem_cons_of_mem _ member))
      rw [encode, List.flatMap_cons, here]
      exact congrArg (char :: ·) later

theorem isAlphanum_hexDigit {value : Nat} (small : value < 16) :
    (hexDigit value).isAlphanum = true := by
  have table : ∀ value < 16, (hexDigit value).isAlphanum = true := by decide
  exact table value small

/-- The characters of an encoded text. -/
theorem mem_encodeChar {keep : Char → Bool} {char coded : Char}
    (member : coded ∈ encodeChar keep char) :
    (coded = char ∧ keep char = true) ∨ coded = '%' ∨ coded.isAlphanum = true := by
  rw [encodeChar] at member
  split at member
  next kept => exact Or.inl ⟨List.mem_singleton.mp member, kept⟩
  next =>
    obtain ⟨byte, _, inside⟩ := List.mem_flatMap.mp member
    have range := byte.toNat_lt
    simp only [escape, List.mem_cons, List.not_mem_nil, or_false] at inside
    rcases inside with rfl | rfl | rfl
    · exact Or.inr (Or.inl rfl)
    · exact Or.inr (Or.inr (isAlphanum_hexDigit (by omega)))
    · exact Or.inr (Or.inr (isAlphanum_hexDigit (by omega)))

theorem mem_encode {keep : Char → Bool} {text : Text} {coded : Char}
    (member : coded ∈ encode keep text) :
    keep coded = true ∨ coded = '%' ∨ coded.isAlphanum = true := by
  obtain ⟨char, _, inside⟩ := List.mem_flatMap.mp member
  rcases mem_encodeChar inside with ⟨rfl, kept⟩ | other
  · exact Or.inl kept
  · exact Or.inr other

/-- A character that is not kept ends in a hexadecimal digit. -/
theorem getLast?_encodeChar {keep : Char → Bool} {char : Char} (escaped : keep char = false) :
    ∃ front last, encodeChar keep char = front ++ [last] ∧ last.isAlphanum = true := by
  have nonempty : String.utf8EncodeChar char ≠ [] := by
    intro empty
    have length := length_utf8EncodeChar_eq char
    rw [empty] at length
    split_ifs at length
  obtain ⟨bytes, byte, split⟩ := (List.eq_nil_or_concat' _).resolve_left nonempty
  refine ⟨bytes.flatMap escape ++ ['%', hexDigit (byte.toNat / 16)], hexDigit (byte.toNat % 16),
    ?_, isAlphanum_hexDigit (by omega)⟩
  rw [encodeChar, escaped, if_neg Bool.false_ne_true, split, List.flatMap_append]
  simp [escape]

/-! ## Decoding -/

def hexValue (char : Char) : Option Nat :=
  if char.isDigit then some (char.toNat - 48)
  else if 65 ≤ char.toNat ∧ char.toNat ≤ 70 then some (char.toNat - 55)
  else if 97 ≤ char.toNat ∧ char.toNat ≤ 102 then some (char.toNat - 87)
  else none

/-- The bytes of a text. A plus sign may stand for a blank; a percent sign that is not
followed by two hexadecimal digits stands for itself. -/
def octets (plus : Bool) : Text → Bytes
  | [] => []
  | '%' :: high :: low :: rest =>
      match hexValue high, hexValue low with
      | some high, some low => UInt8.ofNat (16 * high + low) :: octets plus rest
      | _, _ => String.utf8EncodeChar '%' ++ octets plus (high :: low :: rest)
  | char :: rest =>
      String.utf8EncodeChar (if plus && char = '+' then ' ' else char) ++ octets plus rest

def decode (plus : Bool) (text : Text) : Text := (ofUtf8 (octets plus text)).getD []

theorem hexValue_hexDigit {value : Nat} (small : value < 16) :
    hexValue (hexDigit value) = some value := by
  have table : ∀ value < 16, hexValue (hexDigit value) = some value := by decide
  exact table value small

theorem octets_escape (plus : Bool) (byte : UInt8) (rest : Text) :
    octets plus (escape byte ++ rest) = byte :: octets plus rest := by
  have range := byte.toNat_lt
  simp only [escape, List.cons_append, List.nil_append, octets,
    hexValue_hexDigit (show byte.toNat / 16 < 16 by omega),
    hexValue_hexDigit (show byte.toNat % 16 < 16 by omega)]
  rw [Nat.div_add_mod, UInt8.ofNat_toNat]

theorem octets_escapes (plus : Bool) (bytes : Bytes) (rest : Text) :
    octets plus (bytes.flatMap escape ++ rest) = bytes ++ octets plus rest := by
  induction bytes with
  | nil => rfl
  | cons byte bytes ih =>
      rw [List.flatMap_cons, List.append_assoc, octets_escape, ih]
      rfl

/-- A character other than the percent sign and the plus sign stands for itself. -/
theorem octets_cons (plus : Bool) {char : Char} (percent : char ≠ '%') (sign : char ≠ '+')
    (rest : Text) :
    octets plus (char :: rest) = String.utf8EncodeChar char ++ octets plus rest := by
  have same : (if (plus && char = '+') = true then ' ' else char) = char :=
    if_neg (by simp [sign])
  rw [octets, same]
  intro high low tail equal
  exact absurd equal percent

theorem octets_encode (plus : Bool) {keep : Char → Bool} (percent : keep '%' = false)
    (sign : keep '+' = false) (text : Text) : octets plus (encode keep text) = utf8 text := by
  induction text with
  | nil => rfl
  | cons char rest ih =>
      rw [encode, List.flatMap_cons, utf8_cons, ← ih, encode, encodeChar]
      split
      next kept =>
        apply octets_cons
        · rintro rfl
          rw [percent] at kept
          cases kept
        · rintro rfl
          rw [sign] at kept
          cases kept
      next => exact octets_escapes plus _ _

/-- What is encoded is decoded, if the two signs are not kept. -/
theorem decode_encode (plus : Bool) {keep : Char → Bool} (percent : keep '%' = false)
    (sign : keep '+' = false) (text : Text) : decode plus (encode keep text) = text := by
  rw [decode, octets_encode plus percent sign, ofUtf8_utf8]
  rfl

end Percent

/-! ## References -/

structure Uri where
  authority : Option Text
  query : Option Text
  fragment : Option Text
  deriving DecidableEq

namespace Uri

open Text

def isSlash (char : Char) : Bool := char = '/' || char = '\\'

def parse (text : Text) : Uri :=
  let behind := (cut ':' text).2.getD []
  let outer := cut '#' behind
  let inner := cut '?' outer.1
  { authority := if "//".toList.isPrefixOf inner.1 then
        some ((inner.1.drop 2).takeWhile (fun char => !isSlash char))
      else none
    query := inner.2
    fragment := outer.2 }

def userInfo (uri : Uri) : Option Text := (uri.authority.bind (cutLast '@')).map Prod.fst

/-- The value of the first parameter with a key, which is empty if it has none. -/
def queryParameter (decode : Text → Text) (key : Text) (uri : Uri) : Option Text := do
  let query ← uri.query
  let parameter ← ((query.splitOn '&').map (cut '=')).find? (fun parameter => parameter.1 = key)
  some ((parameter.2.map decode).getD [])

end Uri

end AlienConnection.Library
