import AlienConnection.Database.ShareLinkRoundTrip

/-!
# Legacy links

The server of a legacy link is one Base64 text of the standard alphabet. It is read as the
host of a URI, and a slash ends the host. So a server is read back unless its Base64 text
has a slash.
-/

namespace AlienConnection.Database

open Library

def legacyText (method password host : Text) (port : Int) : Text :=
  method ++ ':' :: (password ++ '@' :: (host ++ ':' :: (toString port).toList))

def legacyServer (method password host : Text) (port : Int) : Text :=
  Base64.encode .standard (Text.utf8 (legacyText method password host port))

def legacyName : Option Text → Text
  | none => []
  | some name => '#' :: name

def legacyLink (method password host : Text) (port : Int) (name : Option Text) : Text :=
  linkScheme ++ (legacyServer method password host port ++ legacyName name)

namespace LinkPlatform

/-- The documented behaviour of the platform towards legacy links: Base64 text is decoded, and
is a host as it stands; a decimal digit has a value below ten; the remains of a character that
was cut off are shown by something that is no digit. -/
structure DocumentedLegacy (platform : LinkPlatform) : Prop extends platform.Documented where
  standard : ∀ text, (∀ char ∈ text, Base64.isDigit .standard char = true) →
    platform.base64 .standard text = Base64.decode .standard text
  uriHost : ∀ text, (∀ char ∈ text, Base64.isDigit .standard char = true) →
    platform.uriHost text = text
  ascii : Decimal.ReadsAscii platform.digit
  base : ∀ char value, platform.digit char = some value → value < 10
  truncated : ∀ front char count, 0 < count → count < (String.utf8EncodeChar char).length →
    ∀ last ∈ (platform.string
      (Text.utf8 front ++ (String.utf8EncodeChar char).take count)).getLast?,
      platform.digit last = none

structure LegacyServer (platform : LinkPlatform) (method password host : Text) (port : Int) :
    Prop where
  hasMethod : method ≠ []
  undivided : ':' ∉ method
  hasHost : host ≠ []
  unrelated : '@' ∉ host
  plain : ∀ char ∈ method ++ password ++ host, platform.lineTerminator char = false
  positive : 1 ≤ port
  bounded : port ≤ 65535

def IsLegacyServer (platform : LinkPlatform) (method password host : Text) (port : Int)
    (profile : Profile) : Prop :=
  profile.method = String.ofList (platform.lowercase method) ∧
    profile.password = String.ofList password ∧ profile.host = String.ofList host ∧
    profile.remotePort = port

/-- The link is read as exactly one profile, with the server that it stands for. -/
def ReadsLegacy (platform : LinkPlatform) (feature : Option Profile) (method password host : Text)
    (port : Int) (name : Option Text) : Prop :=
  ∃ profile,
    platform.findAllUrls (legacyLink method password host port name) feature = [profile] ∧
      IsLegacyServer platform method password host port profile

def behindName (platform : LinkPlatform) (name : Option Text) : Text :=
  (name.getD []).dropWhile platform.inLink

/-- The Base64 text has no slash, and no profile is read from the text behind the link. With a
slash the link is not read as its server, so it must not be read at all, and the text behind
it must have a link to the same server. -/
def ReadableLegacy (platform : LinkPlatform) (feature : Option Profile)
    (method password host : Text) (port : Int) (name : Option Text) : Prop :=
  if '/' ∈ legacyServer method password host port then
    platform.readLink feature (linkScheme ++ legacyServer method password host port) = none ∧
      ∃ profile, platform.findAllUrls (platform.behindName name) feature = [profile] ∧
        IsLegacyServer platform method password host port profile
  else platform.findAllUrls (platform.behindName name) feature = []

variable {platform : LinkPlatform} {method password host : Text} {port : Int} {name : Option Text}
  {char : Char}

/-! ## Finding the link -/

theorem isDigit_of_mem_legacyServer (member : char ∈ legacyServer method password host port) :
    Base64.isDigit .standard char = true := Base64.isDigit_of_mem_encode member

theorem endsLink_of_isDigit (documented : platform.Documented)
    (digit : Base64.isDigit .standard char = true) : platform.endsLink char = true := by
  rcases Base64.isDigit_cases digit with alphanum | rfl | rfl
  · exact endsLink_of_isAlphanum documented alphanum
  · simp [endsLink, Base64.extra]
  · simp [endsLink, Base64.extra]

theorem legacyServer_ne_nil : legacyServer method password host port ≠ [] := by
  intro empty
  have decoded := Base64.decode_encode .standard
    (Text.utf8 (legacyText method password host port))
  rw [← legacyServer, empty] at decoded
  have bytes := Option.some.inj decoded
  rw [legacyText, Text.utf8_append, Text.utf8_cons] at bytes
  obtain ⟨_, behind⟩ := List.append_eq_nil_iff.mp bytes.symm
  exact String.utf8EncodeChar_ne_nil (List.append_eq_nil_iff.mp behind).1

/-- A legacy link is found up to its name, of which the end may get lost. -/
theorem findAll_legacyLink (documented : platform.Documented) :
    ∃ tail, (tail = [] ∨ ∃ rest, tail = '#' :: rest) ∧
      platform.findAll 0 (legacyLink method password host port name) =
        (linkScheme ++ (legacyServer method password host port ++ tail)) ::
          platform.findAll 0 (platform.behindName name) := by
  have ends : ∀ char ∈ legacyServer method password host port, platform.endsLink char = true :=
    fun char member => endsLink_of_isDigit documented (isDigit_of_mem_legacyServer member)
  have inside : ∀ char ∈ legacyServer method password host port, platform.inLink char = true := by
    intro char member
    rw [inLink, ends char member]
    rfl
  cases name with
  | none =>
      refine ⟨[], Or.inl rfl, ?_⟩
      have nothing : platform.findAll 0 (platform.behindName none) = [] := findAll.eq_1 platform 0
      obtain ⟨front, last, split⟩ := (List.eq_nil_or_concat' _).resolve_left
        (@legacyServer_ne_nil method password host port)
      rw [legacyLink, legacyName, List.append_nil, nothing]
      refine findAll_link documented inside ?_ legacyServer_ne_nil
      rw [split]
      apply List.rdropWhile_concat_neg
      rw [ends last (by rw [split]; exact List.mem_append_right _ List.mem_cons_self)]
      exact Bool.false_ne_true
  | some name =>
      have hash : platform.inLink '#' = true := by simp [inLink, endsLink]
      refine ⟨'#' :: (name.takeWhile platform.inLink).rdropWhile
        (fun char => !platform.endsLink char), Or.inr ⟨_, rfl⟩, ?_⟩
      rw [legacyLink, legacyName, findAll_scheme documented rfl]
      · rw [List.takeWhile_append_of_pos inside, List.takeWhile_cons_of_pos hash,
          List.dropWhile_append_of_pos inside, List.dropWhile_cons_of_pos hash,
          Text.rdropWhile_append_cons (by simp [endsLink])]
        rfl
      · rw [List.takeWhile_append_of_pos inside, List.takeWhile_cons_of_pos hash,
          Text.rdropWhile_append_cons (by simp [endsLink])]
        exact List.append_ne_nil_of_right_ne_nil _ (List.cons_ne_nil _ _)

/-! ## Reading it -/

/-- The authority of a legacy link ends before the first slash. -/
theorem parse_legacy {server tail : Text}
    (digits : ∀ char ∈ server, Base64.isDigit .standard char = true)
    (named : tail = [] ∨ ∃ rest, tail = '#' :: rest) :
    (Uri.parse (linkScheme ++ (server ++ tail))).authority =
        some (server.takeWhile (fun char => !Uri.isSlash char)) ∧
      (Uri.parse (linkScheme ++ (server ++ tail))).userInfo = none := by
  have outside : ∀ delimiter, Base64.isDigit .standard delimiter = false → delimiter ∉ server := by
    intro delimiter reserved member
    rw [digits delimiter member] at reserved
    cases reserved
  have hash : '#' ∉ '/' :: '/' :: server := by
    simp only [List.mem_cons, not_or]
    exact ⟨by decide, by decide, outside '#' rfl⟩
  have mark : '?' ∉ '/' :: '/' :: server := by
    simp only [List.mem_cons, not_or]
    exact ⟨by decide, by decide, outside '?' rfl⟩
  have scheme : Text.cut ':' (linkScheme ++ (server ++ tail)) =
      (['s', 's'], some ('/' :: '/' :: (server ++ tail))) := rfl
  have outer : (Text.cut '#' ('/' :: '/' :: (server ++ tail))).1 = '/' :: '/' :: server := by
    rcases named with rfl | ⟨rest, rfl⟩
    · rw [List.append_nil, Text.cut_of_not_mem hash]
    · exact congrArg Prod.fst (Text.cut_append rest hash)
  have slashes : "//".toList.isPrefixOf ('/' :: '/' :: server) = true := rfl
  have authority : (Uri.parse (linkScheme ++ (server ++ tail))).authority =
      some (server.takeWhile (fun char => !Uri.isSlash char)) := by
    simp only [Uri.parse, scheme, Option.getD_some, outer, Text.cut_of_not_mem mark]
    rw [if_pos slashes]
    rfl
  refine ⟨authority, ?_⟩
  have solid : '@' ∉ server.takeWhile (fun char => !Uri.isSlash char) :=
    fun member => outside '@' rfl ((List.takeWhile_sublist _).subset member)
  rw [Uri.userInfo, authority, Option.bind_some, Text.cutLast_of_not_mem solid]
  rfl

/-- What is read from the part of the Base64 text before its first slash. -/
theorem readLink_legacy (documented : platform.DocumentedLegacy) (feature : Option Profile)
    {server tail : Text} (digits : ∀ char ∈ server, Base64.isDigit .standard char = true)
    (named : tail = [] ∨ ∃ rest, tail = '#' :: rest) {profile : Profile}
    (read : platform.readLink feature (linkScheme ++ (server ++ tail)) = some profile) :
    ∃ bytes method password host port number,
      Base64.decode .standard (server.takeWhile (fun char => !Uri.isSlash char)) = some bytes ∧
      platform.legacyPattern (platform.string bytes) = some (method, password, host, port) ∧
      Decimal.parseInt platform.digit port = some number ∧
      profile.method = String.ofList (platform.lowercase method) ∧
      profile.password = String.ofList password ∧ profile.host = String.ofList host ∧
      profile.remotePort = number := by
  obtain ⟨authority, none⟩ := parse_legacy digits named
  have solid : ∀ char ∈ server.takeWhile (fun char => !Uri.isSlash char),
      Base64.isDigit .standard char = true :=
    fun char member => digits char ((List.takeWhile_sublist _).subset member)
  simp only [readLink, none, readLegacy, authority, Option.getD_some, documented.uriHost _ solid,
    documented.standard _ solid, Option.bind_eq_bind, Option.bind_eq_some_iff] at read
  obtain ⟨bytes, decoded, ⟨method, password, host, port⟩, found, number, parsed, made⟩ := read
  cases made
  exact ⟨bytes, method, password, host, port, number, decoded, found, parsed, rfl, rfl, rfl, rfl⟩

/-- The name does not decide whether a legacy link is read. -/
theorem isSome_readLink_legacy (feature : Option Profile) {server tail : Text}
    (digits : ∀ char ∈ server, Base64.isDigit .standard char = true)
    (named : tail = [] ∨ ∃ rest, tail = '#' :: rest) :
    (platform.readLink feature (linkScheme ++ (server ++ tail))).isSome =
      (platform.readLink feature (linkScheme ++ server)).isSome := by
  obtain ⟨authority, none⟩ := parse_legacy digits named
  obtain ⟨bare, noneBare⟩ := parse_legacy digits (Or.inl rfl)
  rw [List.append_nil] at bare noneBare
  simp only [readLink, none, noneBare, readLegacy, authority, bare, Option.bind_eq_bind,
    Option.isSome_bind]
  rfl

/-- The number of a legacy link is read back. -/
theorem parseInt_port (documented : platform.DocumentedLegacy)
    (server : LegacyServer platform method password host port) :
    Decimal.parseInt platform.digit (toString port).toList = some port ∧
      ((toString port).toList ≠ [] ∧ ':' ∉ (toString port).toList) ∧
      ∀ char ∈ (toString port).toList, (platform.digit char).isSome = true := by
  have positive := server.positive
  have bounded := server.bounded
  obtain ⟨number, rfl, written⟩ := Decimal.exists_toDigits (show 0 ≤ port by omega)
  rw [written]
  refine ⟨Decimal.parseInt_toDigits documented.ascii (by omega),
    ⟨Nat.toDigits_ne_nil, fun member => ?_⟩, fun char member => ?_⟩
  · exact nomatch Nat.isDigit_of_mem_toDigits (by decide) (by decide) member
  · exact Decimal.isSome_of_digitsFrom (Decimal.digitsFrom_toDigits documented.ascii number) member

/-! ## Without a slash -/

theorem readLink_of_solid (documented : platform.DocumentedLegacy) (feature : Option Profile)
    (server : LegacyServer platform method password host port)
    (solid : '/' ∉ legacyServer method password host port) {tail : Text}
    (named : tail = [] ∨ ∃ rest, tail = '#' :: rest) :
    ∃ profile, platform.readLink feature
        (linkScheme ++ (legacyServer method password host port ++ tail)) = some profile ∧
      IsLegacyServer platform method password host port profile := by
  have digits : ∀ char ∈ legacyServer method password host port,
      Base64.isDigit .standard char = true := fun _ member => isDigit_of_mem_legacyServer member
  obtain ⟨authority, none⟩ := parse_legacy digits named
  have whole : (legacyServer method password host port).takeWhile (fun char => !Uri.isSlash char) =
      legacyServer method password host port := by
    apply List.takeWhile_eq_self_iff.mpr
    intro char member
    rw [Bool.not_eq_true', Uri.isSlash, Bool.or_eq_false_iff, decide_eq_false_iff_not,
      decide_eq_false_iff_not]
    constructor
    · rintro rfl
      exact solid member
    · rintro rfl
      cases digits _ member
  obtain ⟨parsed, ⟨hasPort, unsigned⟩, decimal⟩ := parseInt_port documented server
  have groups := legacyPattern_written server.hasMethod server.undivided server.hasHost
    server.unrelated hasPort unsigned server.plain decimal
  have decoded : Base64.decode .standard (legacyServer method password host port) = _ :=
    Base64.decode_encode .standard _
  simp only [readLink, none, readLegacy, authority, Option.getD_some, whole,
    documented.uriHost _ digits, documented.standard _ digits, decoded, documented.string,
    legacyText, groups, parsed, Option.bind_eq_bind, Option.bind_some]
  exact ⟨_, rfl, rfl, rfl, rfl, rfl⟩

/-! ## With a slash -/

/-- A part of the text of a server does not have all of the server's groups: a number is not
written with fewer digits. -/
theorem not_legacyMatch_front (documented : platform.DocumentedLegacy)
    (server : LegacyServer platform method password host port)
    {front behind digits otherMethod : Text}
    (nonempty : behind ≠ []) (text : legacyText method password host port = front ++ behind)
    (found : LegacyMatch platform front otherMethod password host digits) :
    Decimal.parseInt platform.digit digits ≠ some port := by
  intro parsed
  have positive := server.positive
  obtain ⟨number, rfl, written⟩ := Decimal.exists_toDigits (show 0 ≤ port by omega)
  have long := Decimal.length_toDigits_le documented.base parsed (by omega)
  -- the method ends at the first colon of both texts
  have same : otherMethod = method := by
    rw [legacyText, found.whole, List.append_assoc, List.cons_append] at text
    have colon : ':' ∉ otherMethod := by
      obtain ⟨first, rest, rfl⟩ := List.exists_cons_of_ne_nil found.hasMethod
      obtain ⟨own, others, rfl⟩ := List.exists_cons_of_ne_nil server.hasMethod
      obtain rfl : own = first := (List.cons.inj text).1
      rw [List.mem_cons, not_or]
      exact ⟨fun here => server.undivided (here ▸ List.mem_cons_self), found.undivided⟩
    have cut := congrArg (Text.cut ':') text
    rw [Text.cut_append _ server.undivided, Text.cut_append _ colon] at cut
    exact (congrArg Prod.fst cut).symm
  have lengths := congrArg List.length text
  have more := List.length_pos_iff.mpr nonempty
  rw [legacyText, found.whole, same, written] at lengths
  simp only [List.length_append, List.length_cons] at lengths
  omega

/-- A text that ends in the remains of a character has no port at its end. -/
theorem not_legacyMatch_truncated (documented : platform.DocumentedLegacy) {front : Text}
    {cut : Char} {count : Nat} (some : 0 < count)
    (fewer : count < (String.utf8EncodeChar cut).length) {digits : Text} :
    ¬ LegacyMatch platform
      (platform.string (Text.utf8 front ++ (String.utf8EncodeChar cut).take count))
      method password host digits := by
  intro found
  obtain ⟨before, last, split⟩ := (List.eq_nil_or_concat' digits).resolve_left found.hasPort
  have ends : (platform.string
      (Text.utf8 front ++ (String.utf8EncodeChar cut).take count)).getLast? = .some last := by
    have whole : method ++ ':' :: (password ++ '@' :: (host ++ ':' :: (before ++ [last]))) =
        method ++ ':' :: (password ++ '@' :: (host ++ ':' :: before)) ++ [last] := by simp
    rw [found.whole, split, whole]
    exact List.getLast?_concat
  have listed : last ∈ digits := by
    rw [split]
    exact List.mem_append_right _ List.mem_cons_self
  have isDigit := found.digits last listed
  rw [documented.truncated front cut count some fewer last ends] at isDigit
  cases isDigit

theorem not_readLink_of_slash (documented : platform.DocumentedLegacy) (feature : Option Profile)
    (server : LegacyServer platform method password host port)
    (slash : '/' ∈ legacyServer method password host port) {tail : Text}
    (named : tail = [] ∨ ∃ rest, tail = '#' :: rest) {profile : Profile}
    (read : platform.readLink feature
      (linkScheme ++ (legacyServer method password host port ++ tail)) = some profile) :
    ¬ IsLegacyServer platform method password host port profile := by
  rintro ⟨_, samePassword, sameHost, samePort⟩
  obtain ⟨bytes, otherMethod, otherPassword, otherHost, digits, number, decoded, found, parsed, _,
    readPassword, readHost, readPort⟩ := readLink_legacy documented feature
      (fun _ member => isDigit_of_mem_legacyServer member) named read
  have matched := legacyMatch_of_eq_some found
  rw [String.ofList_injective (readPassword.symm.trans samePassword),
    String.ofList_injective (readHost.symm.trans sameHost)] at matched
  rw [← readPort, samePort] at parsed
  -- the authority is a part of the Base64 text, so it encodes a part of the bytes
  have part := List.prefix_iff_eq_take.mp (List.takeWhile_prefix (fun char => !Uri.isSlash char)
    (l := legacyServer method password host port))
  have short : ((legacyServer method password host port).takeWhile
      (fun char => !Uri.isSlash char)).length <
        (legacyServer method password host port).length := by
    apply lt_of_le_of_ne (List.takeWhile_sublist _).length_le
    intro same
    have all := List.takeWhile_eq_self_iff.mp ((List.takeWhile_sublist _).eq_of_length same)
    cases all '/' slash
  rw [part] at decoded
  rcases Base64.decode_take .standard _ short with refused | ⟨count, less, taken⟩
  · cases refused.symm.trans decoded
  · cases taken.symm.trans decoded
    obtain ⟨front, char, rest, place, text, inside, cut⟩ := Text.utf8_take less
    rw [cut] at matched
    cases place with
    | zero =>
        rw [List.take_zero, List.append_nil, documented.string] at matched
        exact not_legacyMatch_front documented server (List.cons_ne_nil char rest) text matched
          parsed
    | succ place =>
        exact not_legacyMatch_truncated documented (Nat.succ_pos place) inside matched

/-- A server is read back from its legacy link exactly if its Base64 text has no slash and no
other link is read, two links that make up for each other apart. -/
theorem readsLegacy_iff (documented : platform.DocumentedLegacy) (feature : Option Profile)
    (server : LegacyServer platform method password host port) (name : Option Text) :
    ReadsLegacy platform feature method password host port name ↔
      ReadableLegacy platform feature method password host port name := by
  obtain ⟨tail, named, links⟩ := @findAll_legacyLink platform method password host port name
    documented.toDocumented
  have behind : (platform.findAll 0 (platform.behindName name)).filterMap
      (platform.readLink feature) = platform.findAllUrls (platform.behindName name) feature := rfl
  rw [ReadsLegacy, findAllUrls, links, ReadableLegacy]
  split
  next slash =>
    have bare : (platform.readLink feature
        (linkScheme ++ (legacyServer method password host port ++ tail))).isSome =
        (platform.readLink feature (linkScheme ++ legacyServer method password host port)).isSome :=
      isSome_readLink_legacy feature (fun _ member => isDigit_of_mem_legacyServer member) named
    cases read : platform.readLink feature
        (linkScheme ++ (legacyServer method password host port ++ tail)) with
    | none =>
        rw [read] at bare
        rw [List.filterMap_cons_none read, behind]
        have unread := Option.isNone_iff_eq_none.mp (Option.isSome_eq_false_iff.mp bare.symm)
        exact (and_iff_right unread).symm
    | some profile =>
        rw [read] at bare
        rw [List.filterMap_cons_some read]
        constructor
        · rintro ⟨other, found, columns⟩
          rw [← (List.cons.inj found).1] at columns
          exact absurd columns (not_readLink_of_slash documented feature server slash named read)
        · rintro ⟨unread, _⟩
          rw [unread] at bare
          cases bare
  next solid =>
    obtain ⟨profile, read, columns⟩ := readLink_of_solid documented feature server solid named
    rw [List.filterMap_cons_some read, behind]
    constructor
    · rintro ⟨other, found, _⟩
      exact (List.cons.inj found).2
    · intro nothing
      exact ⟨profile, by rw [nothing], columns⟩

/-! ## The plain platform -/

theorem documentedLegacy_plainPlatform : plainPlatform.DocumentedLegacy where
  toDocumented := documented_plainPlatform
  standard := fun _ _ => rfl
  uriHost := by
    intro text digits
    have solid : ':' ∉ text := fun member => nomatch digits ':' member
    exact congrArg Prod.fst (Text.cut_of_not_mem solid)
  ascii := readsAscii_digit
  base := by
    intro char value found
    simp only [plainPlatform, asciiRuntime] at found
    split at found
    next isDigit =>
      cases found
      simp only [Char.isDigit, Bool.and_eq_true, decide_eq_true_eq] at isDigit
      have upper : char.toNat ≤ 57 := isDigit.2
      change char.toNat - 48 < 10
      omega
    next => cases found
  truncated := by
    intro front char count some fewer last ends
    have none := Text.ofUtf8_truncated front some fewer
    simp only [plainPlatform, none] at ends
    cases ends

theorem plain_of_all {text : Text}
    (all : text.all (fun char => !plainPlatform.lineTerminator char) = true) :
    ∀ char ∈ text, plainPlatform.lineTerminator char = false := by
  intro char member
  exact (Bool.not_eq_true' _).mp (List.all_eq_true.mp all char member)

theorem readsLegacy_sample :
    ReadsLegacy plainPlatform none "bf-cfb".toList "test".toList "192.168.100.1".toList 8888
      (some "example-server".toList) := by
  have server : LegacyServer plainPlatform "bf-cfb".toList "test".toList "192.168.100.1".toList
      8888 :=
    ⟨by decide, by decide, by decide, by decide, plain_of_all (by decide), by decide, by decide⟩
  apply (readsLegacy_iff documentedLegacy_plainPlatform none server _).mpr
  rw [ReadableLegacy, if_neg (by decide)]
  rfl

/-- The password is a question mark, and the third byte of the Base64 text. -/
theorem not_readsLegacy_slash :
    LegacyServer plainPlatform "a".toList "?".toList "h".toList 1 ∧
      ¬ ReadsLegacy plainPlatform none "a".toList "?".toList "h".toList 1 none := by
  have plain := @plain_of_all ("a".toList ++ "?".toList ++ "h".toList) (by decide)
  refine ⟨⟨by decide, by decide, by decide, by decide, plain, by decide, by decide⟩, ?_⟩
  rintro ⟨profile, found, _⟩
  have nothing : plainPlatform.findAllUrls (legacyLink "a".toList "?".toList "h".toList 1 none)
      none = [] := rfl
  rw [nothing] at found
  cases found

end LinkPlatform

end AlienConnection.Database
