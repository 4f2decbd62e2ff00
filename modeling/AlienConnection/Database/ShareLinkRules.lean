import AlienConnection.Database.ShareLink
import AlienConnection.Plugin.ReadBack

/-!
# What becomes of a written link

A link that was written as a whole text is found as a whole, except for underscores and
exclamation marks at its end: they are left as they are by the writer, and cannot stand
last in a link. The reader takes the rest apart into what it was composed of.
-/

namespace AlienConnection.Database

open Library Plugin

namespace LinkPlatform

/-- The documented behaviour of the platform: the decoders undo the encoders, ASCII letters
fold to small ones, and a hash map is walked entry by entry. -/
structure Documented (platform : LinkPlatform) : Prop where
  base64 : ∀ bytes, platform.base64 .urlSafe (Base64.encode .urlSafe bytes) = some bytes
  string : ∀ text, platform.string (Text.utf8 text) = text
  uriDecode : ∀ plus text, platform.uriDecode plus (Percent.encode unreserved text) = text
  foldCase : ∀ char, char.toNat < 128 → platform.foldCase char = char.toLower
  hashOrder : PluginOptions.Walks platform.hashOrder

variable {platform : LinkPlatform} {char : Char}

/-! ## Characters -/

/-- The bounds of letters and digits. -/
theorem isAlphanum_cases (alphanum : char.isAlphanum = true) :
    (65 ≤ char.toNat ∧ char.toNat ≤ 90) ∨ (97 ≤ char.toNat ∧ char.toNat ≤ 122) ∨
      char.isDigit = true := by
  rcases Bool.or_eq_true_iff.mp alphanum with alpha | digit
  · rcases Bool.or_eq_true_iff.mp alpha with upper | lower
    · exact Or.inl (Text.toNat_of_isUpper upper)
    · exact Or.inr (Or.inl (Text.toNat_of_isLower lower))
  · exact Or.inr (Or.inr digit)

theorem isLower_toLower (letter : (65 ≤ char.toNat ∧ char.toNat ≤ 90) ∨
    (97 ≤ char.toNat ∧ char.toNat ≤ 122)) : char.toLower.isLower = true := by
  have table : ∀ code < 123, (65 ≤ code ∧ code ≤ 90) ∨ (97 ≤ code ∧ code ≤ 122) →
      (Char.ofNat code).toLower.isLower = true := by decide
  have folded := table char.toNat (by omega) letter
  rwa [Char.ofNat_toNat] at folded

theorem endsLink_of_isAlphanum (documented : platform.Documented)
    (alphanum : char.isAlphanum = true) : platform.endsLink char = true := by
  rcases isAlphanum_cases alphanum with upper | lower | digit
  · rw [endsLink, documented.foldCase char (by omega), isLower_toLower (Or.inl upper)]
    rfl
  · rw [endsLink, documented.foldCase char (by omega), isLower_toLower (Or.inr lower)]
    rfl
  · rw [endsLink, digit, Bool.or_true]
    rfl

def isLost (char : Char) : Bool := char = '_' || char = '!'

theorem endsLink_eq_of_unreserved (documented : platform.Documented)
    (kept : unreserved char = true) : platform.endsLink char = !isLost char := by
  rw [unreserved, Bool.or_eq_true] at kept
  rcases kept with alphanum | listed
  · rw [endsLink_of_isAlphanum documented alphanum]
    have different : char ≠ '_' ∧ char ≠ '!' := by
      constructor
      · rintro rfl
        cases alphanum
      · rintro rfl
        cases alphanum
    simp [isLost, different]
  · have folded : char.toNat < 128 → platform.foldCase char = char.toLower :=
      documented.foldCase char
    simp only [List.contains_eq_mem, List.mem_cons, List.not_mem_nil, or_false,
      decide_eq_true_eq] at listed
    rcases listed with rfl | rfl | rfl | rfl | rfl | rfl | rfl | rfl | rfl <;>
      rw [endsLink, folded (by decide)] <;> rfl

def isServerChar (char : Char) : Bool :=
  char.isAlphanum || ['-', '.', '_', ':', '%', '@', '[', ']'].contains char

theorem inLink_of_isServerChar (documented : platform.Documented)
    (inside : isServerChar char = true) : platform.inLink char = true := by
  rw [isServerChar, Bool.or_eq_true] at inside
  rcases inside with alphanum | listed
  · rw [inLink, endsLink_of_isAlphanum documented alphanum]
    rfl
  · simp only [List.contains_eq_mem, List.mem_cons, List.not_mem_nil, or_false,
      decide_eq_true_eq] at listed
    rcases listed with rfl | rfl | rfl | rfl | rfl | rfl | rfl | rfl <;> simp [inLink, endsLink]

theorem inLink_of_mem_encode (documented : platform.Documented) {text : Text}
    (member : char ∈ Percent.encode unreserved text) : platform.inLink char = true := by
  rcases Percent.mem_encode member with kept | rfl | alphanum
  · rw [inLink, endsLink_eq_of_unreserved documented kept]
    by_cases lost : isLost char = true
    · rw [isLost, Bool.or_eq_true, decide_eq_true_eq, decide_eq_true_eq] at lost
      rcases lost with rfl | rfl <;> rfl
    · rw [Bool.eq_false_iff.mpr lost]
      rfl
  · simp [inLink, endsLink]
  · rw [inLink, endsLink_of_isAlphanum documented alphanum]
    rfl

/-- A delimiter of links is no character of encoded text. -/
theorem not_mem_encode {delimiter : Char} (reserved : unreserved delimiter = false)
    (differs : delimiter ≠ '%') (text : Text) :
    delimiter ∉ Percent.encode unreserved text := by
  intro member
  rcases Percent.mem_encode member with kept | same | alphanum
  · rw [reserved] at kept
    cases kept
  · exact differs same
  · rw [unreserved, alphanum] at reserved
    cases reserved

/-! ## Finding a written link -/

/-- Behind a character that may stand last, encoded text loses its last underscores and
exclamation marks. -/
theorem rdropWhile_encode (documented : platform.Documented) {front : Text}
    (ends : front.getLast?.any platform.endsLink = true) (text : Text) :
    (front ++ Percent.encode unreserved text).rdropWhile (fun char => !platform.endsLink char) =
      front ++ Percent.encode unreserved (text.rdropWhile isLost) := by
  induction text using List.reverseRecOn with
  | nil =>
      rw [List.rdropWhile_nil, Percent.encode, List.flatMap_nil, List.append_nil,
        List.rdropWhile_eq_self_iff]
      intro nonempty
      rw [List.getLast?_eq_getLast_of_ne_nil nonempty] at ends
      rw [show platform.endsLink (front.getLast nonempty) = true from ends]
      exact Bool.false_ne_true
  | append_singleton text char ih =>
      rw [Percent.encode_append, ← List.append_assoc, List.rdropWhile_concat]
      have single : Percent.encode unreserved [char] = Percent.encodeChar unreserved char := by
        rw [Percent.encode, List.flatMap_singleton]
      rw [single]
      cases kept : unreserved char with
      | true =>
          have same : Percent.encodeChar unreserved char = [char] := if_pos kept
          rw [same, List.rdropWhile_concat, endsLink_eq_of_unreserved documented kept, Bool.not_not]
          split
          · exact ih
          · rw [Percent.encode_append, single, same, List.append_assoc]
      | false =>
          have stays : isLost char = false := by
            rw [Bool.eq_false_iff]
            intro lost
            rw [isLost, Bool.or_eq_true, decide_eq_true_eq, decide_eq_true_eq] at lost
            rcases lost with rfl | rfl <;> cases kept
          obtain ⟨coded, last, split, alphanum⟩ := Percent.getLast?_encodeChar kept
          rw [split, ← List.append_assoc, List.rdropWhile_concat,
            endsLink_of_isAlphanum documented alphanum, stays, if_neg (by decide),
            if_neg (by decide), Percent.encode_append, single, split]
          simp

theorem findAll_skip (skip : Nat) (text : Text) :
    platform.findAll skip text = platform.findAll 0 (text.drop skip) := by
  induction skip generalizing text with
  | zero => rw [List.drop_zero]
  | succ skip ih =>
      cases text with
      | nil => rfl
      | cons char rest =>
          rw [findAll, ih]
          rfl

/-- Characters that may not stand last hold no beginning of a link. -/
theorem findAll_run {run : Text} (inside : ∀ char ∈ run, platform.endsLink char = false)
    (rest : Text) : platform.findAll 0 (run ++ rest) = platform.findAll 0 rest := by
  induction run with
  | nil => rfl
  | cons char run ih =>
      have here := inside char List.mem_cons_self
      have folded : platform.foldCase char ≠ 's' := by
        intro same
        rw [endsLink, same] at here
        cases here
      have unmatched : platform.matchAt (char :: (run ++ rest)) = none := by
        have none : platform.behindScheme (char :: (run ++ rest)) = none := by
          rw [behindScheme.eq_def]
          split
          next first second tail same =>
            rw [(List.cons.inj same).1] at folded
            exact if_neg (fun both => folded both.1)
          next => rfl
        rw [matchAt, none]
      rw [List.cons_append, findAll, unmatched]
      exact ih (fun other member => inside other (List.mem_cons_of_mem _ member))

/-- A link is found as far as its characters may stand in one, up to those at its end that may
not stand last. The search goes on behind all of them. -/
theorem findAll_scheme (documented : platform.Documented) {rest body : Text}
    (trimmed : (rest.takeWhile platform.inLink).rdropWhile (fun char => !platform.endsLink char) =
      body) (nonempty : body ≠ []) :
    platform.findAll 0 (linkScheme ++ rest) =
      (linkScheme ++ body) :: platform.findAll 0 (rest.dropWhile platform.inLink) := by
  have small : platform.foldCase 's' = 's' := documented.foldCase 's' (by decide)
  have scheme : ∀ text : Text, linkScheme ++ text = 's' :: 's' :: ':' :: '/' :: '/' :: text :=
    fun _ => rfl
  have found : platform.matchAt ('s' :: 's' :: ':' :: '/' :: '/' :: rest) =
      some ('s' :: 's' :: ':' :: '/' :: '/' :: body) := by
    rw [matchAt, behindScheme, if_pos ⟨small, small⟩]
    dsimp only
    rw [trimmed, if_neg (by simpa using nonempty)]
    rfl
  obtain ⟨run, lost, whole⟩ : ∃ run, (∀ char ∈ run, platform.endsLink char = false) ∧
      rest = body ++ (run ++ rest.dropWhile platform.inLink) := by
    refine ⟨(rest.takeWhile platform.inLink).rtakeWhile (fun char => !platform.endsLink char),
      fun char member => ?_, ?_⟩
    · have outside := List.mem_rtakeWhile_imp member
      rwa [Bool.not_eq_true'] at outside
    · rw [← List.append_assoc, ← trimmed, List.rdropWhile_append_rtakeWhile,
        List.takeWhile_append_dropWhile]
  rw [scheme, scheme, findAll, found]
  dsimp only
  have behind : ('s' :: ':' :: '/' :: '/' :: rest).drop
      (('s' :: 's' :: ':' :: '/' :: '/' :: body).length - 1) =
        run ++ rest.dropWhile platform.inLink := by
    conv => enter [1, 2]; rw [whole]
    simp
  rw [findAll_skip, behind, findAll_run lost]

/-- A link of which all characters may stand in a link is found, up to the characters at
its end that may not stand last. -/
theorem findAll_link (documented : platform.Documented) {rest body : Text}
    (inside : ∀ char ∈ rest, platform.inLink char = true)
    (trimmed : rest.rdropWhile (fun char => !platform.endsLink char) = body)
    (nonempty : body ≠ []) :
    platform.findAll 0 (linkScheme ++ rest) = [linkScheme ++ body] := by
  have taken : rest.takeWhile platform.inLink = rest := List.takeWhile_eq_self_iff.mpr inside
  have dropped : rest.dropWhile platform.inLink = [] := List.dropWhile_eq_nil_iff.mpr inside
  rw [findAll_scheme documented (taken.symm ▸ trimmed) nonempty, dropped, findAll]

/-! ## Taking it apart -/

/-- The components of a link. -/
theorem parse_composeLink {server : Text} (inside : ∀ char ∈ server, isServerChar char = true)
    (plugin name : Option Text) :
    Uri.parse (composeLink server plugin name) =
      { authority := some server
        query := plugin.map (fun text => pluginKey ++ Percent.encode unreserved text)
        fragment := name.map (Percent.encode unreserved) } := by
  have outside : ∀ delimiter, isServerChar delimiter = false → delimiter ∉ server := by
    intro delimiter reserved member
    rw [inside delimiter member] at reserved
    cases reserved
  have scheme : Text.cut ':' (composeLink server plugin name) =
      (['s', 's'], some ('/' :: '/' :: (server ++ linkQuery plugin ++ linkFragment name))) := rfl
  have hash : '#' ∉ '/' :: '/' :: (server ++ linkQuery plugin) := by
    simp only [List.mem_cons, List.mem_append, not_or]
    refine ⟨by decide, by decide, outside '#' rfl, ?_⟩
    cases plugin with
    | none => exact List.not_mem_nil
    | some text =>
        rw [linkQuery, List.mem_append, not_or]
        exact ⟨by decide, not_mem_encode rfl (by decide) text⟩
  have outer : Text.cut '#' ('/' :: '/' :: (server ++ linkQuery plugin ++ linkFragment name)) =
      ('/' :: '/' :: (server ++ linkQuery plugin), name.map (Percent.encode unreserved)) := by
    cases name with
    | none =>
        rw [linkFragment, List.append_nil]
        exact Text.cut_of_not_mem hash
    | some text => exact Text.cut_append (Percent.encode unreserved text) hash
  have mark : '?' ∉ '/' :: '/' :: server := by
    simp only [List.mem_cons, not_or]
    exact ⟨by decide, by decide, outside '?' rfl⟩
  have inner : Text.cut '?' ('/' :: '/' :: (server ++ linkQuery plugin)) =
      ('/' :: '/' :: server,
        plugin.map (fun text => pluginKey ++ Percent.encode unreserved text)) := by
    cases plugin with
    | none =>
        rw [linkQuery, List.append_nil]
        exact Text.cut_of_not_mem mark
    | some text =>
        exact Text.cut_append (pluginKey ++ Percent.encode unreserved text) mark
  have authority : server.takeWhile (fun char => !Uri.isSlash char) = server := by
    apply List.takeWhile_eq_self_iff.mpr
    intro char member
    rw [Bool.not_eq_true', Uri.isSlash, Bool.or_eq_false_iff, decide_eq_false_iff_not,
      decide_eq_false_iff_not]
    constructor
    · rintro rfl
      exact outside '/' rfl member
    · rintro rfl
      exact outside '\\' rfl member
  have slashes : "//".toList.isPrefixOf ('/' :: '/' :: server) = true := rfl
  simp only [Uri.parse, scheme, Option.getD_some, outer, inner]
  rw [if_pos slashes]
  exact congrArg (fun text => Uri.mk (some text) _ _) authority

theorem queryParameter_plugin (decode : Text → Text) (authority fragment : Option Text)
    (plugin : Option Text) :
    Uri.queryParameter decode "plugin".toList
        { authority := authority
          query := plugin.map (fun text => pluginKey ++ Percent.encode unreserved text)
          fragment := fragment } =
      plugin.map (fun text => decode (Percent.encode unreserved text)) := by
  cases plugin with
  | none => rfl
  | some text =>
      have single : (pluginKey ++ Percent.encode unreserved text).splitOn '&' =
          [pluginKey ++ Percent.encode unreserved text] := by
        apply List.splitOn_eq_singleton
        rw [List.mem_append, not_or]
        exact ⟨by decide, not_mem_encode rfl (by decide) text⟩
      have absent : '=' ∉ "plugin".toList := by decide
      have key : Text.cut '=' (pluginKey ++ Percent.encode unreserved text) =
          ("plugin".toList, some (Percent.encode unreserved text)) :=
        Text.cut_append (Percent.encode unreserved text) absent
      simp only [Uri.queryParameter, Option.map_some, Option.bind_eq_bind, Option.bind_some, single,
        List.map_cons, List.map_nil, key, List.find?_cons, decide_true, Option.getD_some]

theorem isServerChar_of_isDigit (digit : Base64.isDigit .urlSafe char = true) :
    isServerChar char = true := by
  rw [isServerChar, Bool.or_eq_true]
  rcases Base64.isDigit_cases digit with alphanum | rfl | rfl
  · exact Or.inl alphanum
  · exact Or.inr rfl
  · exact Or.inr rfl

theorem isDigit_of_mem_toString {port : Int} (positive : 0 ≤ port)
    (member : char ∈ (toString port).toList) : char.isDigit = true := by
  obtain ⟨number, _, written⟩ := Decimal.exists_toDigits positive
  rw [written] at member
  exact Nat.isDigit_of_mem_toDigits (by decide) (by decide) member

/-- The groups of the user info that was written. -/
theorem userInfoPattern_written {method password : Text} (nonempty : method ≠ [])
    (undivided : ':' ∉ method)
    (plain : ∀ char ∈ method ++ password, platform.lineTerminator char = false) :
    platform.userInfoPattern (method ++ ':' :: password) = some (method, password) := by
  cases method with
  | nil => exact absurd rfl nonempty
  | cons first rest =>
      obtain ⟨_, later⟩ := not_or.mp (List.mem_cons.not.mp undivided)
      have clean : ¬ (first :: (rest ++ password)).any platform.lineTerminator = true := by
        rw [Bool.not_eq_true, List.any_eq_false]
        intro char member
        rw [plain char member]
        exact Bool.false_ne_true
      rw [List.cons_append, userInfoPattern, Text.cut_append password later]
      exact if_neg clean

/-! ## The legacy pattern -/

structure LegacyMatch (platform : LinkPlatform) (text method password host port : Text) :
    Prop where
  whole : text = method ++ ':' :: (password ++ '@' :: (host ++ ':' :: port))
  hasMethod : method ≠ []
  undivided : ':' ∉ method.tail
  hasHost : host ≠ []
  hasPort : port ≠ []
  unsigned : ':' ∉ port
  digits : ∀ char ∈ port, (platform.digit char).isSome = true

theorem legacyMatch_of_eq_some {text method password host port : Text}
    (found : platform.legacyPattern text = some (method, password, host, port)) :
    LegacyMatch platform text method password host port := by
  cases text with
  | nil => cases found
  | cons first rest =>
      simp only [legacyPattern, Option.bind_eq_bind, Option.bind_eq_some_iff] at found
      obtain ⟨behind, cut, ⟨server, digits⟩, divided, last, ends, ⟨secret, name⟩, named, groups⟩ :=
        found
      split at groups
      next => cases groups
      next fine =>
        cases groups
        obtain ⟨_, nonempty, decimal⟩ : _ ∧ digits ≠ [] ∧
            ¬ digits.any (fun char => (platform.digit char).isNone) = true := by
          simpa only [not_or] using fine
        obtain ⟨behindWhole, unsigned⟩ := Text.eq_of_cutLast divided
        obtain ⟨serverWhole, _⟩ := Text.eq_of_cutLast named
        have serverEnd := List.dropLast_append_getLast? last ends
        refine ⟨?_, List.cons_ne_nil _ _, ?_,
          List.append_ne_nil_of_right_ne_nil _ (List.cons_ne_nil _ _), nonempty, unsigned, ?_⟩
        · dsimp only at serverWhole serverEnd
          rw [serverWhole] at serverEnd
          have text := Text.eq_of_cut cut
          rw [behindWhole, ← serverEnd] at text
          refine congrArg (first :: ·) (text.trans ?_)
          simp
        · exact fun member => (Text.mem_of_mem_cut member).2 rfl
        · intro char member
          rw [Bool.not_eq_true, List.any_eq_false] at decimal
          rw [← Option.not_isNone, Bool.not_eq_true', Bool.eq_false_iff]
          exact decimal char member

/-- The groups of a text that was put together from them. -/
theorem legacyPattern_written {method password host port : Text} (hasMethod : method ≠ [])
    (undivided : ':' ∉ method) (hasHost : host ≠ []) (unrelated : '@' ∉ host) (hasPort : port ≠ [])
    (unsigned : ':' ∉ port)
    (plain : ∀ char ∈ method ++ password ++ host, platform.lineTerminator char = false)
    (digits : ∀ char ∈ port, (platform.digit char).isSome = true) :
    platform.legacyPattern (method ++ ':' :: (password ++ '@' :: (host ++ ':' :: port))) =
      some (method, password, host, port) := by
  obtain ⟨front, last, rfl⟩ := (List.eq_nil_or_concat' host).resolve_left hasHost
  cases method with
  | nil => exact absurd rfl hasMethod
  | cons first rest =>
      obtain ⟨_, later⟩ := not_or.mp (List.mem_cons.not.mp undivided)
      have server : Text.cutLast ':' (password ++ '@' :: (front ++ [last] ++ ':' :: port)) =
          some (password ++ '@' :: (front ++ [last]), port) := by
        rw [← Text.cutLast_append _ unsigned]
        simp
      have ends : (password ++ '@' :: (front ++ [last])).getLast? = some last := by
        rw [← List.cons_append, ← List.append_assoc]
        exact List.getLast?_concat
      have kept : (password ++ '@' :: (front ++ [last])).dropLast = password ++ '@' :: front := by
        rw [← List.cons_append, ← List.append_assoc]
        exact List.dropLast_concat
      have named : Text.cutLast '@' (password ++ '@' :: front) = some (password, front) :=
        Text.cutLast_append password (fun member => unrelated (List.mem_append_left _ member))
      have fine : ¬ ((first :: (rest ++ password ++ front ++ [last])).any
          platform.lineTerminator = true ∨ port = [] ∨
            port.any (fun char => (platform.digit char).isNone) = true) := by
        rw [not_or, not_or]
        refine ⟨?_, hasPort, ?_⟩
        · rw [Bool.not_eq_true, List.any_eq_false]
          intro char member
          rw [plain char (by simpa [or_assoc] using member)]
          exact Bool.false_ne_true
        · rw [Bool.not_eq_true, List.any_eq_false]
          intro char member
          have isDigit := digits char member
          rwa [← Option.not_isNone, Bool.not_eq_true', Bool.eq_false_iff] at isDigit
      simp only [List.cons_append, legacyPattern, Text.cut_append _ later, Option.bind_eq_bind,
        Option.bind_some, server, ends, kept, named, if_neg fine]

end LinkPlatform

end AlienConnection.Database
